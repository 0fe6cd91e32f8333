import LineReview.Report.Basic
import LineReview.Review.Outcome

/-!
# The result of a scan

A scan reviews a sequence of files. Its result keeps their order: files with
at least one diagnostic on one list, files that could not be reviewed on the
other. Clean files are only counted.
-/

namespace LineReview

structure Failure where
  path : Text
  reason : ReviewError
deriving DecidableEq, Repr

structure ScanResult where
  files : List FileResult := []
  failures : List Failure := []
  /-- Number of files that were handed out. -/
  scanned : Nat := 0
  /-- Number of files that the cache answered. -/
  cached : Nat := 0
deriving DecidableEq, Repr

namespace ScanResult

def count (r : ScanResult) : Nat := (r.files.flatMap (·.diagnostics)).length

def isClean (r : ScanResult) : Bool := r.files.isEmpty && r.failures.isEmpty

/-- Diagnostics by path; of a path that occurs twice the last occurrence counts. -/
def find? (r : ScanResult) (path : Text) : Option (List Diagnostic) :=
  (r.files.reverse.find? (·.path = path)).map (·.diagnostics)

def report (r : ScanResult) : Report :=
  { files := r.files
    problems := r.failures.map fun f => ⟨f.path, f.reason.message⟩
    scanned := r.scanned }

end ScanResult

end LineReview
