import LineReview.Diagnostic.Basic

/-!
# One line per diagnostic

The short report of a file lists its diagnostics by line and column, one line
for each: severity, code, place and message. Line breaks inside a message
become spaces, so the lines of the report and the diagnostics correspond.
-/

namespace LineReview

/-- What one line of the short report shows. -/
structure ListingEntry where
  severity : String
  code : Text
  line : UInt32
  col : UInt32
  message : Text
deriving DecidableEq, Repr

namespace ListingEntry

/-- Line breaks in any of the three conventions become one space each. -/
def unbroken : Text → Text
  | [] => []
  | 13 :: 10 :: t => 32 :: unbroken t
  | b :: t => (if b = 13 || b = 10 then 32 else b) :: unbroken t

/-- A message on one line, without white space around it. -/
def cleanMessage (m : Text) : Text := Text.trim (unbroken m)

/-- A finding about a whole line is listed at its first column. -/
def ofDiagnostic (d : Diagnostic) : ListingEntry :=
  { severity := d.severity.label
    code := d.code.id
    line := d.line
    col := if d.col = 0 then 1 else d.col
    message := cleanMessage d.message }

/-- Order by line, then column, then code identifier. -/
def precedes (a b : ListingEntry) : Bool :=
  if a.line ≠ b.line then a.line < b.line
  else if a.col ≠ b.col then a.col < b.col
  else Text.less a.code b.code

def render (path : Text) (e : ListingEntry) : Text :=
  bytes e.severity ++ [32] ++ e.code ++ [32] ++ path ++ [58] ++ Text.decimal e.line.toNat ++ [58]
    ++ Text.decimal e.col.toNat ++ [32] ++ e.message

end ListingEntry

namespace Diagnostic

/-- A path without `./` in front, however often it is repeated. -/
def withoutHere : Text → Text
  | 46 :: 47 :: t => withoutHere t
  | t => t

def entries (ds : List Diagnostic) : List ListingEntry :=
  (ds.map ListingEntry.ofDiagnostic).mergeSort fun a b => !b.precedes a

/-- The short report of the file at `path`. -/
def listing (path : Text) (ds : List Diagnostic) : Text :=
  Text.joinWith [10] ((entries ds).map (ListingEntry.render (withoutHere path)))

end Diagnostic

end LineReview
