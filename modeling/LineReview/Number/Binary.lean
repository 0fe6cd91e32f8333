import LineReview.Text.Basic

/-!
# Binary fractions

A finite 64-bit float is a whole number times a power of two. The texts of
such numbers are worked out on that form, in exact arithmetic.
-/

namespace LineReview

/-- The number `mantissa · 2 ^ exponent`, negative on request. -/
structure Binary where
  isNegative : Bool
  mantissa : Nat
  exponent : Int
deriving DecidableEq, Repr

namespace Binary

/-- The number that the bits of a finite float stand for. -/
def ofBits (b : UInt64) : Binary :=
  let e := ((b >>> 52) &&& 0x7FF).toNat
  let m := (b &&& 0xFFFFFFFFFFFFF).toNat
  ⟨b >>> 63 == 1, if e = 0 then m else m + Nat.pow 2 52, (if e = 0 then 1 else (e : Int)) - 1075⟩

def fraction (x : Binary) : Nat × Nat :=
  if 0 ≤ x.exponent then (x.mantissa * Nat.pow 2 x.exponent.toNat, 1)
  else (x.mantissa, Nat.pow 2 (-x.exponent).toNat)

/-- The quotient, rounded to the nearest whole number and to the even one of two. -/
def roundDiv (n d : Nat) : Nat :=
  let q := n / d
  let r := n % d
  if 2 * r < d then q else if d < 2 * r then q + 1 else if q % 2 = 0 then q else q + 1

def fixed (places : Nat) (x : Binary) : Text :=
  let (n, d) := x.fraction
  let r := roundDiv (n * Nat.pow 10 places) d
  (if x.isNegative then [45] else []) ++ Text.decimal (r / Nat.pow 10 places)
    ++ (if places = 0 then [] else 46 :: Text.decimalPadded places (r % Nat.pow 10 places))

/-- The reals that round to the number, as a range of fractions over one denominator: lower end,
the number itself, upper end and the denominator. -/
def interval (x : Binary) : Nat × Nat × Nat × Nat :=
  let unit := if 0 ≤ x.exponent then Nat.pow 2 x.exponent.toNat else 1
  let d := if 0 ≤ x.exponent then 4 else 4 * Nat.pow 2 (-x.exponent).toNat
  let v := 4 * x.mantissa * unit
  let below := if x.mantissa = Nat.pow 2 52 && -1074 < x.exponent then unit else 2 * unit
  (v - below, v, v + 2 * unit, d)

/-- Number of decimal digits before the point; not positive for a number below one tenth. -/
def magnitude (n d : Nat) : Int :=
  if d ≤ n then (Text.decimal (n / d)).length
  else 1 - ((Text.decimal ((d - 1) / (if n = 0 then 1 else n))).length : Int)

/-- The multiple of a power of ten that is nearest to the number among those that round to it,
for a given number of digits. -/
def nearest? (x : Binary) (digits : Nat) : Option (Nat × Int) :=
  let (lo, v, hi, d) := x.interval
  let p := magnitude v d - digits
  let (up, down) := if 0 ≤ p then (Nat.pow 10 p.toNat, 1) else (1, Nat.pow 10 (-p).toNat)
  let a := v * down / (d * up)
  let even := x.mantissa % 2 = 0
  let hits (k : Nat) : Bool :=
    let t := k * up * d
    (if even then lo * down ≤ t else lo * down < t) && (if even then t ≤ hi * down else t < hi * down)
  let low := hits a
  let high := hits (a + 1)
  if low && high then
    (if 2 * (v * down) ≤ (2 * a + 1) * up * d then some (a, p) else some (a + 1, p))
  else if low then some (a, p)
  else if high then some (a + 1, p)
  else none

/-- Fewest decimal digits that round to the number, with the power of ten they are counted in. -/
def shortest (x : Binary) : Nat × Int :=
  ((List.range 17).findSome? fun k => x.nearest? (k + 1)).getD (x.mantissa, x.exponent)

def positional (digits : Nat) (power : Int) : Text :=
  if 0 ≤ power then Text.decimal digits ++ List.replicate power.toNat 48
  else
    let k := (-power).toNat
    let t := Text.decimalPadded (k + 1) digits
    let whole := t.take (t.length - k)
    let places := Text.dropTrailing (· == 48) (t.drop (t.length - k))
    if places = [] then whole else whole ++ 46 :: places

/-- The shortest positional text that reads back as the number. -/
def text (x : Binary) : Text :=
  let (digits, power) := if x.mantissa = 0 then (0, 0) else x.shortest
  (if x.isNegative then [45] else []) ++ positional digits power

end Binary

end LineReview
