import LineReview.Diagnostic.Code
import LineReview.Diagnostic.Severity

/-!
# Diagnostics

A diagnostic is one violation of a rule in one file. Lines count from one.
The column is the one-based byte column of the identifier in question, or
zero when the finding is about the line as a whole.
-/

namespace LineReview

structure Diagnostic where
  severity : Severity
  code : Code
  line : UInt32
  col : UInt32
  message : Text
deriving DecidableEq, Repr

end LineReview
