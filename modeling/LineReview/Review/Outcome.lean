import LineReview.FileSystem.Access
import LineReview.Review.Lines

/-!
# Reviewing a file

A file that is reviewed on its own has diagnostics, or there is a reason why
it has none: it could not be read, or its review broke off.
-/

namespace LineReview

inductive ReviewError where
  | unreadable (e : AccessError)
  /-- The review of the file at `path` broke off with a value. -/
  | crashed (path value : Text)
deriving DecidableEq, Repr

def ReviewError.message : ReviewError → Text
  | unreadable e => bytes "file not found or unreadable: " ++ e.message
  | crashed path value => bytes "internal error while reviewing " ++ path ++ bytes ": " ++ value

/-- What a review uses: the rules, a classifier in place of the lexical one if there is one, and how
the process it runs in takes code points of ambiguous width. -/
structure Reviewer where
  options : ReviewOptions := {}
  classifier : Option LineClassifier := none
  widths : Text.Widths := .western

namespace Reviewer

def classify (r : Reviewer) : LineClassifier := r.classifier.getD r.options.lexical

/-- Names the rules for the given build version. A classifier of one's own is not covered by any
name, so the fingerprint is then empty. The process is no part of the name. -/
def fingerprint (version : Text) (r : Reviewer) : Text :=
  if r.classifier.isSome then [] else r.options.fingerprint version

/-- The diagnostics of a file that has been loaded; `none` when the review never ends. -/
def source (r : Reviewer) (path : Text) (f : SourceFile) :
    Option (Except ReviewError (List Diagnostic)) :=
  (Review.outcome? r.widths r.options r.classify f).map (·.mapError (.crashed path))

def load (fs : FileSystem) (path : Text) : Except ReviewError SourceFile :=
  match fs.read path with
  | .ok content => .ok (.ofDisk path content)
  | .error e => .error (.unreadable e)

/-- The diagnostics of the file at a path; `none` when the review never ends. -/
def file (r : Reviewer) (fs : FileSystem) (path : Text) :
    Option (Except ReviewError (List Diagnostic)) :=
  match load fs path with
  | .ok f => r.source path f
  | .error e => some (.error e)

end Reviewer

end LineReview
