import LineReview.Time.Duration

/-!
# Durations as words

A duration is written as a sequence of decimal numbers, each with a unit, and an
optional sign in front: `300ms`, `-1.5h`, `2h45m`. A zero needs no unit.
-/

namespace LineReview.Duration

inductive ReadError where
  | invalid
  | missingUnit
  | unknownUnit (unit : Text)
deriving DecidableEq, Repr

/-- A word in double quotes; bytes that are no visible ASCII character are written in hexadecimal. -/
def quoteWord (t : Text) : Text :=
  34 :: t.flatMap (fun b =>
      if b < 32 || 128 ≤ b then bytes "\\x" ++ Text.hex [b]
      else if b = 34 || b = 92 then [92, b]
      else [b])
    ++ [34]

def ReadError.message (t : Text) : ReadError → Text
  | invalid => bytes "time: invalid duration " ++ quoteWord t
  | missingUnit => bytes "time: missing unit in duration " ++ quoteWord t
  | unknownUnit u =>
    bytes "time: unknown unit " ++ quoteWord u ++ bytes " in duration " ++ quoteWord t

/-- The units with their nanoseconds; the sign for micro has two encodings. -/
def units : List (String × Nat) :=
  [("ns", 1), ("us", 1000), ("µs", 1000), ("μs", 1000), ("ms", 1000000), ("s", 1000000000),
   ("m", 60000000000), ("h", 3600000000000)]

def unit? (t : Text) : Option Nat := (units.find? fun u => bytes u.1 == t).map (·.2)

def valueOf (ds : Text) : Nat := ds.foldl (fun n d => 10 * n + (d.toNat - 48)) 0

/-- The digits of a fraction that are taken into account: as many as fit 63 bits. -/
def fractionDigits (n : Nat) : Text → Text
  | [] => []
  | d :: ds =>
    let m := 10 * n + (d.toNat - 48)
    if (Nat.pow 2 63 - 1) / 10 < n || Nat.pow 2 63 < m then [] else d :: fractionDigits m ds

/-- A number, split off the front: digits before and after the point, and the rest. -/
def splitNumber (t : Text) : Text × Text × Text :=
  let whole := t.takeWhile Text.isDigit
  match t.dropWhile Text.isDigit with
  | 46 :: r => (whole, r.takeWhile Text.isDigit, r.dropWhile Text.isDigit)
  | r => (whole, [], r)

def isUnitByte (b : UInt8) : Bool := b != 46 && !Text.isDigit b

theorem splitNumber_rest_suffix (t : Text) : (splitNumber t).2.2 <:+ t := by
  have h := List.dropWhile_suffix Text.isDigit (l := t)
  unfold splitNumber
  dsimp only
  split
  · next r hr =>
    rw [hr] at h
    exact (List.dropWhile_suffix _).trans ((List.suffix_cons 46 r).trans h)
  · exact h

theorem length_rest_lt (t : Text) (h : ¬ (splitNumber t).2.2.takeWhile isUnitByte = []) :
    ((splitNumber t).2.2.dropWhile isUnitByte).length < t.length := by
  have hr := (splitNumber_rest_suffix t).length_le
  have hs := congrArg List.length
    (List.takeWhile_append_dropWhile (p := isUnitByte) (l := (splitNumber t).2.2))
  rw [List.length_append] at hs
  have hw := List.length_pos_iff.2 h
  omega

/-- Reads numbers with units and adds them to a sum of nanoseconds, which has 64 bits. -/
def readTerms (sum : Nat) (t : Text) : Except ReadError Nat :=
  match t with
  | [] => .ok sum
  | b :: t' =>
    if isUnitByte b then .error .invalid
    else
      let n := splitNumber (b :: t')
      if Nat.pow 2 63 < valueOf n.1 || (n.1 = [] && n.2.1 = []) then .error .invalid
      else
        let word := n.2.2.takeWhile isUnitByte
        if word = [] then .error .missingUnit
        else match unit? word with
          | none => .error (.unknownUnit word)
          | some u =>
            let fraction := fractionDigits 0 n.2.1
            let v := valueOf n.1 * u + valueOf fraction * u / Nat.pow 10 fraction.length
            let sum' := (sum + v) % Nat.pow 2 64
            if Nat.pow 2 63 / u < valueOf n.1 || Nat.pow 2 63 < v || Nat.pow 2 63 < sum' then .error .invalid
            else readTerms sum' (n.2.2.dropWhile isUnitByte)
termination_by t.length
decreasing_by exact length_rest_lt (b :: t') (by assumption)

def read (t : Text) : Except ReadError Duration := do
  let (isNegative, r) := match t with
    | 45 :: r => (true, r)
    | 43 :: r => (false, r)
    | _ => (false, t)
  if r = [48] then return ⟨0⟩
  if r = [] then throw .invalid
  let n ← readTerms 0 r
  if isNegative then pure ⟨Int64.ofInt (-n)⟩
  else if Nat.pow 2 63 ≤ n then throw .invalid
  else pure ⟨Int64.ofNat n⟩

end LineReview.Duration
