import LineReview.FileSystem.Access
import LineReview.PathRule.Basic

/-!
# Rule files

A folder may hold a file of rules about the paths below it, one rule per line.
A path is judged by the rule files of all folders above it; the file that
is closest to the path and has a matching rule decides.
-/

namespace LineReview

inductive RuleFileError where
  | access (e : AccessError)
  | lineTooLong (path : Text)
  | malformed (path : Text) (e : PathRule.Malformed)
deriving DecidableEq, Repr

def RuleFileError.message : RuleFileError → Text
  | access e => bytes "read " ++ e.path ++ bytes ": " ++ e.message
  | lineTooLong path =>
    bytes "parse " ++ path ++ bytes ": scan rules: bufio.Scanner: token too long"
  | malformed path e => bytes "compile " ++ path ++ bytes ": " ++ e.message

namespace RuleFile

/-- A line without the blanks at its end. A blank behind a backslash stays, and the backslash goes. -/
def withoutBlanks (line : Text) : Text :=
  let t := Text.dropTrailing (fun b => b == 32 || b == 9) line
  if t.getLast? = some 92 && t.length < line.length then
    t.dropLast ++ (line.drop t.length).take 1
  else t

/-- What a line asks for: whether paths are included, and the pattern. Empty lines and comments
ask for nothing. -/
def request? (line : Text) : Option (Bool × Text) :=
  let line := withoutBlanks (if line.getLast? = some 13 then line.dropLast else line)
  let (includes, pattern) := match line with
    | 33 :: p => (true, p)
    | 92 :: 35 :: p => (false, 35 :: p)
    | 92 :: 33 :: p => (false, 33 :: p)
    | p => (false, p)
  if line.head? = some 35 || pattern = [] then none else some (includes, pattern)

/-- Bytes that a line may have, without the line feed. -/
def maxLine : Nat := 65535

def parse (path content : Text) : Except RuleFileError (List PathRule) :=
  let lines := Text.splitOn 10 content
  if lines.any (maxLine < ·.length) then .error (.lineTooLong path)
  else
    (lines.filterMap request?).mapM fun (includes, pattern) =>
      (PathRule.read includes pattern).mapError (.malformed path)

/-- The rules of the folder with the given absolute path. Without a rule file there are none. -/
def load (fs : FileSystem) (fileName folder : Text) : Except RuleFileError (List PathRule) :=
  let path := Path.join folder fileName
  match fs.read path with
  | .ok content => parse path content
  | .error e => if e.reason = .notFound then .ok [] else .error (.access e)

/-- The name of the rule files; `none` when it is none. A blank name stands for the usual one. -/
def name? (t : Text) : Option Text :=
  let n := Text.trim t
  let n := if n = [] then bytes ".pathrules" else n
  if n.contains 47 || n = [46] || n = Path.up then none else some n

/-- The verdict of the rule files of a folder and of the folders on the way to a path below it.
All files on the way have to be readable, those in the judged folder included. -/
def verdict (fs : FileSystem) (fileName : Text) (isFolder : Bool) :
    Text → List Text → Option Bool → Except RuleFileError (Option Bool)
  | folder, [], soFar => if isFolder then (load fs fileName folder).map fun _ => soFar else .ok soFar
  | folder, n :: names, soFar =>
    match load fs fileName folder with
    | .error e => .error e
    | .ok rules =>
      verdict fs fileName isFolder (Path.join folder n) names
        ((PathRule.verdict? rules (n :: names) isFolder).orElse fun _ => soFar)

def includes (fs : FileSystem) (fileName root p : Text) (isFolder : Bool) :
    Except RuleFileError Bool :=
  (verdict fs fileName isFolder (Path.absolute fs.workingDirectory root) (PathRule.candidate p)
    none).map (·.getD true)

end RuleFile

end LineReview
