import LineReview.Text.Basic

/-!
# Groups of workers

A scan runs under a context, which may be called off or run out of time, and its
workers form a group with a context of its own below that one. The group is over
when it hears that the scan is, when a worker comes back with an error, and when
all workers have come back.
-/

namespace LineReview.Scan

/-- Why a context is over. -/
inductive Interruption where
  | canceled
  /-- Its deadline has passed. -/
  | expired
deriving DecidableEq, Repr

def Interruption.message : Interruption → Text
  | canceled => bytes "context canceled"
  | expired => bytes "context deadline exceeded"

structure Group where
  /-- Why the context of the group is over, if it is. -/
  context : Option Interruption := none
  /-- The first error that a worker came back with. -/
  error? : Option Interruption := none
deriving DecidableEq, Repr

namespace Group

/-- The group is over. The first reason stays. -/
def stop (g : Group) (e : Interruption) : Group := { g with context := g.context.or (some e) }

/-- What a worker comes back with; its error ends the group, if it is the first one. -/
def hear (g : Group) : Option Interruption → Group
  | none => g
  | some e => if g.error?.isSome then g else { g.stop .canceled with error? := some e }

end Group

end LineReview.Scan
