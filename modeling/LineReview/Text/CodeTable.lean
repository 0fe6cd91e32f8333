/-!
# Tables over code points

A table lists ranges of code points with a value each, in ascending order.
Tables are written as text, one item per range: `a-b=v` in hexadecimal, where
`-b` may be left out for a single code point and `=v` for the value one. A set
is a table whose values do not matter.
-/

namespace LineReview

structure CodeRange where
  first : Nat
  last : Nat
  value : Nat
deriving DecidableEq, Repr

abbrev CodeTable := List CodeRange

namespace CodeTable

def find? (t : CodeTable) (c : Nat) : Option Nat :=
  (List.find? (fun r => r.first ≤ c && c ≤ r.last) t).map (·.value)

def covers (t : CodeTable) (c : Nat) : Bool :=
  List.any t fun r => r.first ≤ c && c ≤ r.last

def hexDigitValue (c : Char) : Nat :=
  if '0' ≤ c && c ≤ '9' then c.toNat - 48 else c.toNat - 87

/-- One item `a`, `a-b`, `a=v` or `a-b=v`. -/
def readRange (item : String) : CodeRange :=
  let close (r : Nat × Nat × Nat) (mark : Char) (n : Nat) : Nat × Nat × Nat :=
    if mark == '-' then (r.1, n, r.2.2) else if mark == '=' then (r.1, r.2.1, n) else (n, n, 1)
  let step (s : (Nat × Nat × Nat) × Char × Nat) (c : Char) : (Nat × Nat × Nat) × Char × Nat :=
    if c == '-' || c == '=' then (close s.1 s.2.1 s.2.2, c, 0)
    else (s.1, s.2.1, 16 * s.2.2 + hexDigitValue c)
  let s := item.toList.foldl step ((0, 0, 1), ' ', 0)
  let r := close s.1 s.2.1 s.2.2
  ⟨r.1, r.2.1, r.2.2⟩

/-- The table written in lines of items, separated by single spaces. -/
def ofLines (ls : List String) : CodeTable := (ls.flatMap (·.splitOn " ")).map readRange

end CodeTable

end LineReview
