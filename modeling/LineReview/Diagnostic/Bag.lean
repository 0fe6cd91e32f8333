import LineReview.Diagnostic.Basic

/-!
# A bag of diagnostics with a limit

A bag takes diagnostics in the order in which they are offered until its limit
is reached and refuses all later ones. Sorting is stable.
-/

namespace LineReview

/-- Diagnostics of one file. A limit that is not positive is none. -/
structure Bag where
  limit : Int64
  items : List Diagnostic
deriving DecidableEq, Repr

namespace Bag

def empty (limit : Int64) : Bag := ⟨limit, []⟩

def hasRoom (b : Bag) : Bool := b.limit ≤ 0 || b.items.length < b.limit.toInt.toNat

def add (b : Bag) (d : Diagnostic) : Bag :=
  if b.hasRoom then { b with items := b.items ++ [d] } else b

def addAll (b : Bag) (ds : List Diagnostic) : Bag := ds.foldl add b

/-- Order of a sorted bag: by line, then column, then descending severity, then code. -/
def precedes (d e : Diagnostic) : Bool :=
  if d.line ≠ e.line then d.line < e.line
  else if d.col ≠ e.col then d.col < e.col
  else if d.severity ≠ e.severity then e.severity.level < d.severity.level
  else d.code.number < e.code.number

/-- Sorts the items; those that agree in every key keep their order. -/
def sort (b : Bag) : Bag := { b with items := b.items.mergeSort fun d e => !precedes e d }

inductive Call where
  | add (d : Diagnostic)
  | sort
deriving DecidableEq, Repr

/-- The answer to a call and the bag after it. Only an addition is answered: was the diagnostic
taken in? -/
def receive (b : Bag) : Call → Option Bool × Bag
  | .add d => (some b.hasRoom, b.add d)
  | .sort => (none, b.sort)

end Bag

end LineReview
