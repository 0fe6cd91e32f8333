import LineReview.Classifier.Word

/-!
# Brace bodies

The body of a declaration is what stands between its opening brace and the
brace that closes it, or the end of the line when none does.
-/

namespace LineReview.Classifier

/-- Number of bytes before the brace that closes the `depth` braces open so far; all bytes when
they are not closed. -/
def closingOffset : Nat → Text → Nat
  | _, [] => 0
  | depth, b :: t =>
    if b = 123 then closingOffset (depth + 1) t + 1
    else if b = 125 then
      match depth with
      | 0 | 1 => 0
      | d + 2 => closingOffset (d + 1) t + 1
    else closingOffset depth t + 1

/-- The range between the first opening brace at or after `start` and its closing brace. -/
def braceBody? (line : Text) (start : Nat) : Option Span :=
  (Text.indexOf? 123 (line.drop start)).map fun i =>
    let body := start + i + 1
    ⟨body, body + closingOffset 1 (line.drop body)⟩

/-- The body of the first class or struct that is opened on the line. -/
def recordBody? (line : Text) : Option Span := (recordBrace? line).bind (braceBody? line)

end LineReview.Classifier
