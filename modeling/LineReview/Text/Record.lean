import LineReview.Text.Basic

/-!
# Records of comma-separated fields

A record is one line of fields with commas between them. A field in double
quotes may hold commas, line breaks and, written twice, double quotes. Of a text
with several records only the first is read; empty lines before it are skipped.
-/

namespace LineReview.Record

/-- Why a text has no record. Lines and columns count from one, columns in bytes; `start` is the
line on which the record begins. -/
inductive ReadError where
  | empty
  /-- A quote inside a field that does not begin with one. -/
  | bareQuote (start line column : Nat)
  /-- A quoted field is not closed, or something follows its closing quote. -/
  | strayQuote (start line column : Nat)
deriving DecidableEq, Repr

def placeText (start line column : Nat) : Text :=
  (if start = line then [] else bytes "record on line " ++ Text.decimal start ++ bytes "; ")
    ++ bytes "parse error on line " ++ Text.decimal line ++ bytes ", column " ++ Text.decimal column
    ++ bytes ": "

def ReadError.message : ReadError → Text
  | empty => bytes "EOF"
  | bareQuote s l c => placeText s l c ++ bytes "bare \" in non-quoted-field"
  | strayQuote s l c => placeText s l c ++ bytes "extraneous or missing \" in quoted-field"

/-- Lines with the break at their end, which is a single line feed; the last line may have none, and
then loses a carriage return at its end. -/
def lines (t : Text) : List Text :=
  let ps := Text.splitOn 10 t
  let cut (l : Text) : Text := if l.getLast? = some 13 then l.dropLast else l
  let last := cut (ps.getLast?.getD [])
  ps.dropLast.map (fun l => cut l ++ [10])
    ++ (if ps.getLast? = some [] || ps = [] then [] else [last])

def body (l : Text) : Text := if l.getLast? = some 10 then l.dropLast else l

/-- Where reading stands: the current line as it remains, the lines after it, and the place. -/
structure Cursor where
  start : Nat
  line : Nat
  column : Nat := 1
  here : Text
  next : List Text

/-- Bytes that remain, with one for every further line. -/
def Cursor.size (c : Cursor) : Nat := c.next.foldl (fun n l => n + l.length + 1) c.here.length

def Cursor.skip (c : Cursor) (n : Nat) : Cursor :=
  { c with here := c.here.drop n, column := c.column + n }

/-- Reads on behind an opening quote. `field` is what the field holds so far; the result is the
field and, when a comma follows, the place behind it. The first argument bounds the steps. -/
def quotedField : Nat → Cursor → Text → Except ReadError (Text × Option Cursor)
  | 0, c, _ => .error (.strayQuote c.start c.line c.column)
  | fuel + 1, c, field =>
    match Text.indexOf? 34 c.here with
    | some i =>
      let field := field ++ c.here.take i
      let c := c.skip (i + 1)
      match c.here with
      | 34 :: _ => quotedField fuel (c.skip 1) (field ++ [34])
      | 44 :: _ => .ok (field, some (c.skip 1))
      | rest =>
        if body rest = [] then .ok (field, none)
        else .error (.strayQuote c.start c.line (c.column - 1))
    | none =>
      if c.here = [] then .error (.strayQuote c.start c.line c.column)
      else
        let field := field ++ c.here
        match c.next with
        | [] => .error (.strayQuote c.start c.line (c.column + c.here.length))
        | l :: ls =>
          if l = [] then .error (.strayQuote c.start c.line (c.column + c.here.length))
          else quotedField fuel { c with line := c.line + 1, column := 1, here := l, next := ls } field

def fields : Nat → Cursor → Except ReadError (List Text)
  | 0, _ => .ok []
  | fuel + 1, c =>
    match c.here with
    | 34 :: _ =>
      match quotedField (c.size + 1) (c.skip 1) [] with
      | .error e => .error e
      | .ok (f, none) => .ok [f]
      | .ok (f, some c) => (fields fuel c).map (f :: ·)
    | _ =>
      let (f, more) := match Text.indexOf? 44 c.here with
        | some i => (c.here.take i, some (c.skip (i + 1)))
        | none => (body c.here, none)
      match Text.indexOf? 34 f with
      | some j => .error (.bareQuote c.start c.line (c.column + j))
      | none =>
        match more with
        | none => .ok [f]
        | some c => (fields fuel c).map (f :: ·)

def firstLine : Nat → List Text → Option Cursor
  | _, [] => none
  | n, l :: ls =>
    if body l = [] then firstLine (n + 1) ls
    else some { start := n, line := n, here := l, next := ls }

def read (t : Text) : Except ReadError (List Text) :=
  match firstLine 1 (lines t) with
  | none => .error .empty
  | some c => fields (c.size + 1) c

end LineReview.Record
