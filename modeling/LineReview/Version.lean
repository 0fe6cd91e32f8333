import LineReview.JsonValue
import LineReview.Report.Human
import LineReview.Text.Space

/-!
# Build information

A build carries a version and, possibly, the commit and the date it was made
from. The parts of the version number can be shown in colours.
-/

namespace LineReview

structure Build where
  version : Text := bytes "0.1.0-dev"
  commit : Text := []
  date : Text := []
deriving DecidableEq, Repr

namespace Build

/-- The text without white space around it, or `unknown` when nothing remains. -/
def orUnknown (t : Text) : Text :=
  let w := Text.trim t
  if w = [] then bytes "unknown" else w

def cutAtDot? (t : Text) : Option (Text × Text) :=
  if t.contains 46 then some (t.takeWhile (· != 46), (t.dropWhile (· != 46)).drop 1) else none

/-- The version, its major, minor and patch number each in a colour of its own when asked for.
A version without two dots has no such parts. -/
def versionText (color : Bool) (b : Build) : Text :=
  let v := Text.trim b.version
  let v := if v = [] then bytes "dev" else v
  match cutAtDot? v with
  | none => v
  | some (major, rest) =>
    match cutAtDot? rest with
    | none => v
    | some (minor, rest) =>
      let isMark (c : UInt8) : Bool := c == 45 || c == 43
      let patch := rest.takeWhile fun c => !isMark c
      let tail := rest.dropWhile fun c => !isMark c
      Report.paint color "33;1" "0;22" major ++ [46] ++ Report.paint color "32;1" "0;22" minor
        ++ [46] ++ Report.paint color "34;1" "0;22" patch ++ tail

def pretty (color showCommit showDate : Bool) (b : Build) : Text :=
  bytes "codereview " ++ b.versionText color ++ [10]
    ++ (if showCommit then bytes "commit: " ++ orUnknown b.commit ++ [10] else [])
    ++ (if showDate then bytes "built:  " ++ orUnknown b.date ++ [10] else [])

def json (showCommit showDate : Bool) (b : Build) : Text :=
  (JsonValue.object
    ([("tool", .str "codereview"), ("version", .string (orUnknown b.version))]
      ++ (if showCommit then [("git_commit", .string (orUnknown b.commit))] else [])
      ++ (if showDate then [("build_date", .string (orUnknown b.date))] else []))).indented 0 ++ [10]

end Build

end LineReview
