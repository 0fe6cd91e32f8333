import LineReview.Diagnostic.Listing
import LineReview.Path
import LineReview.Source.FileSet

/-!
# What a report says

A report lists files with their diagnostics and files that could not be
reviewed. How it is written is a matter of the format; all formats spell paths
in the same way.
-/

namespace LineReview

/-- The diagnostics of one file, in line order. -/
structure FileResult where
  path : Text
  diagnostics : List Diagnostic
deriving DecidableEq, Repr

structure FileProblem where
  path : Text
  message : Text
deriving DecidableEq, Repr

structure Report where
  files : List FileResult := []
  problems : List FileProblem := []
  /-- Number of files looked at. -/
  scanned : Int := 0
deriving DecidableEq, Repr

namespace Report

def isClean (r : Report) : Bool := r.files.isEmpty && r.problems.isEmpty

def count (r : Report) : Nat := (r.files.flatMap (·.diagnostics)).length

inductive Format where
  | text
  | short
  | json
  | sarif
deriving DecidableEq, Repr

namespace Format

def name : Format → String
  | text => "text"
  | short => "short"
  | json => "json"
  | sarif => "sarif"

/-- Reads the name of a format; the empty name means text. -/
def parse? (t : Text) : Option Format :=
  if t = [] then some text else [text, short, json, sarif].find? fun f => bytes f.name = t

def unknownMessage (t : Text) : Text :=
  bytes "unknown format " ++ Text.quoted t ++ bytes " (want text, short, json or sarif)"

end Format

/-- How paths are spelled: mode, base directory and working directory. -/
structure Spelling where
  mode : Path.Mode := .given
  base : Text := []
  cwd : Text := [47]
deriving DecidableEq, Repr

def Spelling.path (s : Spelling) (p : Text) : Text := Path.format s.cwd s.mode s.base p

end Report

end LineReview
