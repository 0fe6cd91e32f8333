import LineReview.Report.Basic

/-!
# Reports for readers

The text report groups diagnostics by file and can quote the line of each, with
a caret under the column. The short report has one line per diagnostic and one
per file that could not be reviewed.
-/

namespace LineReview.Report

/-- Puts a text between the terminal codes that switch an attribute on and off. -/
def paint (isOn : Bool) (set reset : String) (t : Text) : Text :=
  if isOn then bytes "\x1b[" ++ bytes set ++ bytes "m" ++ t ++ bytes "\x1b[" ++ bytes reset ++ bytes "m"
  else t

structure TextOptions where
  color : Bool := false
  spelling : Spelling := {}
  /-- Files to quote lines from. -/
  sources : Option FileSet := none

/-- What stands before the caret: a tab under a tab and a space under any other byte. -/
def caretIndent (before : Text) : Text := before.map fun b => if b = 9 then 9 else 32

/-- The line of a diagnostic and the caret under its column, as far as there are such. -/
def quoteLine (color : Bool) (f : SourceFile) (d : Diagnostic) : Text :=
  if d.line = 0 || f.lineCount < d.line.toNat then []
  else
    let line := f.line d.line.toNat
    bytes "    | " ++ line ++ [10] ++
      (if d.col = 0 || line.length + 1 < d.col.toNat then []
       else bytes "    | " ++ caretIndent (line.take (d.col.toNat - 1))
         ++ paint color "33" "0" (bytes "^") ++ [10])

def fileBlock (o : TextOptions) (f : FileResult) : Text :=
  let source := o.sources.bind (·.find? f.path)
  paint o.color "1" "22" (o.spelling.path f.path) ++ [10]
    ++ f.diagnostics.flatMap fun d =>
      bytes "  " ++ paint o.color "36" "0" (bytes "line " ++ Text.decimal d.line.toNat)
        ++ bytes ": " ++ d.message ++ [10]
        ++ (match source with
            | some s => quoteLine o.color s d
            | none => [])

def text (o : TextOptions) (r : Report) : Text :=
  if r.isClean then bytes "all files passed\n"
  else
    r.files.flatMap (fileBlock o)
      ++ r.problems.flatMap fun p =>
        paint o.color "31;1" "0;22" (bytes "error:") ++ [32] ++ o.spelling.path p.path
          ++ bytes ": " ++ p.message ++ [10]

/-- One line per diagnostic, then one per file that could not be reviewed. -/
def short (s : Spelling) (r : Report) : Text :=
  (r.files.flatMap fun f =>
      if f.diagnostics.isEmpty then []
      else Diagnostic.listing (s.path f.path) f.diagnostics ++ [10])
    ++ r.problems.flatMap fun p =>
      bytes "error IO4001 " ++ s.path p.path ++ [32] ++ p.message ++ [10]

end LineReview.Report
