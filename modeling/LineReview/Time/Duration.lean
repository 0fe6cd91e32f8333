import LineReview.Number.Binary

/-!
# Durations

A duration is a 64-bit number of nanoseconds. It is written with the largest
unit that leaves a whole part: hours, minutes and seconds together from one
second on, and milli-, micro- or nanoseconds below that.
-/

namespace LineReview

structure Duration where
  nanoseconds : Int64
deriving DecidableEq, Repr

namespace Duration

def milliseconds (d : Duration) : Float := d.nanoseconds.toFloat / 1000000.0

/-- The duration to the nearest microsecond, halves away from zero; at the ends of the range the
result is the end itself. -/
def toMicrosecond (d : Duration) : Duration :=
  let n := d.nanoseconds.toInt
  let k := (n.natAbs + 500) / 1000 * 1000
  if n < 0 then ⟨if Nat.pow 2 63 < k then Int64.minValue else Int64.ofInt (-k)⟩
  else ⟨if Nat.pow 2 63 ≤ k then Int64.maxValue else Int64.ofInt k⟩

/-- A number of units, where `n` counts parts of which the unit has `10 ^ places`. -/
def inUnits (n places : Nat) (unit : String) : Text :=
  Binary.positional n (-(places : Int)) ++ bytes unit

def text (d : Duration) : Text :=
  let n := d.nanoseconds.toInt.natAbs
  let sign : Text := if d.nanoseconds < 0 then [45] else []
  if n = 0 then bytes "0s"
  else if n < 1000 then sign ++ inUnits n 0 "ns"
  else if n < 1000000 then sign ++ inUnits n 3 "µs"
  else if n < 1000000000 then sign ++ inUnits n 6 "ms"
  else
    let minutes := n / 60000000000
    let seconds := inUnits (n % 60000000000) 9 "s"
    if minutes = 0 then sign ++ seconds
    else if minutes < 60 then sign ++ Text.decimal minutes ++ bytes "m" ++ seconds
    else
      sign ++ Text.decimal (minutes / 60) ++ bytes "h" ++ Text.decimal (minutes % 60) ++ bytes "m"
        ++ seconds

end Duration

end LineReview
