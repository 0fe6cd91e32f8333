import LineReview.Review.Options
import LineReview.Walk

/-!
# Settings of a scan

Everything that decides what a scan reports: the rules, the files to look for
and the number of workers.
-/

namespace LineReview

structure Settings where
  review : ReviewOptions := {}
  walk : WalkOptions :=
    { extensions := WalkOptions.standardExtensions, ignoreFile := WalkOptions.standardIgnoreFile }
  /-- Workers at once; not positive for as many as there are processors. -/
  jobs : Int64 := 0
deriving DecidableEq, Repr

end LineReview
