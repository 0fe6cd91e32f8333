import LineReview.Text.Basic

/-!
# Progress events

While a tree is reviewed, every file is reported as queued, then as worked on,
and then as done, answered from the cache, or failed.
-/

namespace LineReview.Progress

inductive Status where
  | queued
  | working
  | done
  | cached
  | error
  /-- A state that the review itself never reports. -/
  | other (name : Text)
deriving DecidableEq, Repr

namespace Status

def name : Status → Text
  | queued => bytes "queued"
  | working => bytes "working"
  | done => bytes "done"
  | cached => bytes "cached"
  | error => bytes "error"
  | other n => n

def ofName (t : Text) : Status :=
  ([queued, working, done, cached, error].find? fun s => s.name = t).getD (other t)

def isFinal : Status → Bool
  | done | cached | error => true
  | _ => false

end Status

/-- News about a file; an empty path speaks of no file. -/
structure Event where
  file : Text
  status : Status
  diagnostics : Int64 := 0
  /-- What went wrong, if something did. -/
  error : Option Text := none
deriving DecidableEq, Repr

end LineReview.Progress
