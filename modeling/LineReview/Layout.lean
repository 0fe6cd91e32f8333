import LineReview.Diagnostic.Bag
import LineReview.Text.Cells
import LineReview.Text.Normal
import LineReview.Text.Space

/-!
# Layout rules

A line must not be too long, and on request its indentation must be a multiple
of a width and must not mix tabs with spaces. White space at the end of a line
never counts, and a line of white space only has no indentation.
-/

namespace LineReview

/-- Limits and switches of the layout rules. Values that make no sense are replaced by the
standard ones when the rules run, see `effective`. -/
structure LayoutOptions where
  maxLineLength : Int64 := 120
  /-- How length is counted: in terminal cells when it is `cells`, else in code points. -/
  measure : Text := bytes "runes"
  /-- Indentation must be a multiple of `indentWidth`. -/
  indent : Bool := false
  /-- Indentation must not have both tabs and spaces. -/
  mixedIndent : Bool := false
  indentWidth : Int64 := 4
  tabWidth : Int64 := 4
  severity : Severity := .error
deriving DecidableEq, Repr

namespace LayoutOptions

/-- Reads the name of a measure; the empty name means code points. -/
def measure? (t : Text) : Option Text :=
  if t = [] || t = bytes "runes" then some (bytes "runes")
  else if t = bytes "cells" then some (bytes "cells")
  else none

def unknownMeasure (t : Text) : Text :=
  bytes "unknown measure " ++ Text.quoted t ++ bytes " (want runes or cells)"

/-- The options with the standard value for every limit that is not positive. -/
def effective (o : LayoutOptions) : LayoutOptions :=
  { o with
    maxLineLength := if o.maxLineLength ≤ 0 then 120 else o.maxLineLength
    measure := if o.measure = [] then bytes "runes" else o.measure
    indentWidth := if o.indentWidth ≤ 0 then 4 else o.indentWidth
    tabWidth := if o.tabWidth ≤ 0 then 4 else o.tabWidth }

end LayoutOptions

namespace Layout

/-- Length of a line without its trailing white space, in the given measure. -/
def length (widths : Text.Widths) (measure : Text) (line : Text) : Nat :=
  let t := Text.trimRight line
  if measure = bytes "cells" then Text.cells widths t else Text.normalLength t

/-- Column after one more code point of white space: a tab goes to the next multiple of the tab
width, anything else takes one column. Columns are 64-bit and wrap. -/
def advance (tabWidth : Int64) (col : Int64) (c : Nat) : Int64 :=
  if c = 9 then col + (tabWidth - col % tabWidth) else col + 1

def expandedWidth (tabWidth : Int64) (lead : Text) : Int64 :=
  (Text.codes lead).foldl (advance tabWidth) 0

/-- The indentation of a line, if it has any and something follows it. -/
def indentation? (line : Text) : Option Text :=
  let lead := Text.leading line
  if lead = [] || lead.length = line.length then none else some lead

def lengthFinding (widths : Text.Widths) (o : LayoutOptions) (line : Text) (n : UInt32) :
    List Diagnostic :=
  let got := length widths o.measure line
  if o.maxLineLength.toInt < got then
    [{ severity := o.severity, code := .lineLength, line := n, col := 0,
       message := bytes "line exceeds " ++ Text.decimalInt o.maxLineLength.toInt
         ++ bytes " characters (got " ++ Text.decimal got ++ bytes ")" }]
  else []

def widthFinding (o : LayoutOptions) (lead : Text) (n : UInt32) : List Diagnostic :=
  let width := expandedWidth o.tabWidth lead
  if o.indent && width % o.indentWidth != 0 then
    [{ severity := o.severity, code := .indentWidth, line := n, col := 1,
       message := bytes "indentation must be a multiple of "
         ++ Text.decimalInt o.indentWidth.toInt ++ bytes " spaces (got "
         ++ Text.decimalInt width.toInt ++ bytes ")" }]
  else []

def mixedFinding (o : LayoutOptions) (lead : Text) (n : UInt32) : List Diagnostic :=
  if o.mixedIndent && lead.contains 9 && lead.contains 32 then
    [{ severity := o.severity, code := .mixedIndent, line := n, col := 1,
       message := bytes "indentation mixes tabs and spaces" }]
  else []

/-- The findings about a line under effective options, length first. -/
def findings (widths : Text.Widths) (o : LayoutOptions) (line : Text) (n : UInt32) :
    List Diagnostic :=
  lengthFinding widths o line n ++
    match indentation? line with
    | none => []
    | some lead => widthFinding o lead n ++ mixedFinding o lead n

def check (widths : Text.Widths) (o : LayoutOptions) (line : Text) (n : UInt32) :
    List Diagnostic :=
  findings widths o.effective line n

end Layout

end LineReview
