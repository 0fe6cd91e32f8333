import LineReview.Toml.Reader

/-!
# TOML documents

The statements of a document fill one table. A name is taken once it was
assigned or was the heading of a table. Names that only occur on the way to
others are implicit: they can still be given a heading of their own. A name that
last held an array can be taken again.

Every assignment and every heading leaves its key in a list, in the order of
the document.
-/

namespace LineReview.Toml

inductive Value where
  | string (t : Text)
  | integer (n : Int64)
  | float
  | bool (b : Bool)
  | datetime
  | array (items : List Value)
  | table (entries : List (Text × Value))
  /-- A list of tables, each with a heading of its own. -/
  | tables (all : List (List (Text × Value)))

abbrev Table := List (Text × Value)

namespace Table

def find? (t : Table) (name : Text) : Option Value := t.lookup name

def put (t : Table) (name : Text) (v : Value) : Table :=
  match t with
  | [] => [(name, v)]
  | (n, w) :: r => if n = name then (n, v) :: r else (n, w) :: put r name v

/-- Changes the table at a key. In a list of tables the last one is meant. There is no result when
some name on the way is no table. -/
def update? (f : Table → Option Table) : Key → Table → Option Table
  | [], t => f t
  | n :: key, t =>
    match t.find? n with
    | some (.table u) => (update? f key u).map fun u => t.put n (.table u)
    | some (.tables us) =>
      match us.getLast? with
      | some u => (update? f key u).map fun u => t.put n (.tables (us.dropLast ++ [u]))
      | none => none
    | _ => none

/-- The value at a key. Lists of tables are not entered. -/
def get? : Key → Table → Option Value
  | [], t => some (.table t)
  | n :: key, t =>
    match t.find? n with
    | some (.table u) => get? key u
    | some v => if key.isEmpty then some v else none
    | none => none

end Table

structure Document where
  root : Table := []
  /-- Keys in the order of the document. -/
  keys : List Key := []
  /-- Keys that only occurred on the way to others. -/
  implicit : List Key := []
  /-- Keys that hold arrays. -/
  arrays : List Key := []

namespace Document

def markImplicit (d : Document) (key : Key) : Document :=
  { d with implicit := key :: d.implicit.filter (· ≠ key) }

def unmarkImplicit (d : Document) (key : Key) : Document :=
  { d with implicit := d.implicit.filter (· ≠ key) }

def noteArray (d : Document) (key : Key) (isArray : Bool) : Document :=
  let others := d.arrays.filter (· ≠ key)
  { d with arrays := if isArray then key :: others else others }

def noteKey (d : Document) (key : Key) : Document := { d with keys := d.keys ++ [key] }

def tableAt? : Key → Table → Option Table
  | [], t => some t
  | n :: key, t =>
    match t.find? n with
    | some (.table u) => tableAt? key u
    | some (.tables us) => us.getLast?.bind (tableAt? key)
    | _ => none

/-- Gives a value to a name in the table at a key. A name that is taken stays as it is when it was
implicit, and is taken again when it held an array. -/
def set? (d : Document) (context : Key) (name : Text) (v : Value) : Option Document := do
  let t ← tableAt? context d.root
  let key := context ++ [name]
  let write (d : Document) : Option Document := do
    let root ← d.root.update? (fun t => some (t.put name v)) context
    pure { d with root }
  if (t.find? name).isNone then write d
  else if d.arrays.contains key then write (d.unmarkImplicit key)
  else if d.implicit.contains key then some (d.unmarkImplicit key)
  else none

/-- Gives a name the value that was read for it. An inline table was filled in place; where it took
the place of an array it stays as it is. -/
def assign? (d : Document) (context : Key) (name : Text) (v : Value) : Option Document :=
  let key := context ++ [name]
  match v with
  | .table _ => if d.arrays.contains key then some (d.unmarkImplicit key) else d.set? context name v
  | _ => d.set? context name v

/-- Makes the names on the way to a key tables, as far as they are missing. -/
def openWay? (d : Document) : Key → Key → Option Document
  | _, [] => some d
  | _, [_] => some d
  | context, n :: m :: key => do
    let t ← tableAt? context d.root
    let here := context ++ [n]
    let d ← match t.find? n with
      | none => do
        let root ← d.root.update? (fun t => some (t.put n (.table []))) context
        pure { d.markImplicit here with root }
      | some (.table _) => some d
      | some (.tables _) => some d
      | some _ => none
    openWay? d here (m :: key)

/-- Opens the table with a key, or one more table in the list with that key. -/
def open? (d : Document) (key : Key) (isElement : Bool) : Option Document := do
  let d ← d.openWay? [] key
  let context := key.dropLast
  let name ← key.getLast?
  if isElement then
    let t ← tableAt? context d.root
    let all ← match t.find? name with
      | none => some []
      | some (.tables us) => some us
      | some _ => none
    let root ← d.root.update? (fun t => some (t.put name (.tables (all ++ [[]])))) context
    pure { d with root }
  else d.set? context name (.table [])

def openDotted? (d : Document) (context : Key) : List Text → Option Document
  | [] => some d
  | n :: names => do
    let here := context ++ [n]
    let d ← (d.markImplicit here).open? here false
    openDotted? d here names

mutual

/-- The value of a term that is assigned to a name in a table. Inline tables are filled in place. -/
def value? (d : Document) (context : Key) (name : Text) (isItem : Bool) :
    Term → Option (Document × Value)
  | .string t => some (d, .string t)
  | .integer n => some (d, .integer n)
  | .float => some (d, .float)
  | .bool b => some (d, .bool b)
  | .datetime => some (d, .datetime)
  | .array items =>
    (items? (d.noteArray (context ++ [name]) true) context name items).map fun (d, l) =>
      (d, .array l)
  | .table pairs =>
    let here := context ++ [name]
    match (d.markImplicit here).open? here isItem with
    | none => none
    | some d => (assignAll? d here pairs).map fun d => (d, .table [])

def items? (d : Document) (context : Key) (name : Text) :
    Terms → Option (Document × List Value)
  | .nil => some (d, [])
  | .cons x rest =>
    match value? d context name true x with
    | none => none
    | some (d, v) => (items? d context name rest).map fun (d, l) => (d, v :: l)

def assignAll? (d : Document) (context : Key) : Pairs → Option Document
  | .nil => some d
  | .cons key x rest =>
    match key.getLast?, d.openDotted? context key.dropLast with
    | some name, some d =>
      let context' := context ++ key.dropLast
      match value? (d.noteKey (context' ++ [name])) context' name false x with
      | none => none
      | some (d, v) =>
        match d.assign? context' name v with
        | none => none
        | some d =>
          let isArray := match v with
            | .array _ => true
            | _ => false
          assignAll? (d.noteArray (context' ++ [name]) isArray) context rest
    | _, _ => none

end

/-- Carries out one statement. The key is that of the table in force. -/
def step? (d : Document) (context : Key) : Statement → Option (Document × Key)
  | .table key => do
    let d ← d.open? key false
    pure ((d.noteArray key false).noteKey key, key)
  | .element key => do
    let d ← d.open? key true
    pure ((d.noteArray key false).noteKey key, key)
  | .assign key x => do
    let d ← d.assignAll? context (.cons key x .nil)
    pure (d, context)

def run? (d : Document) (context : Key) : List Statement → Option Document
  | [] => some d
  | s :: rest => do
    let (d, context) ← d.step? context s
    run? d context rest

def read? (content : Text) : Option Document := do
  ({} : Document).run? [] (← Toml.read? content)

end Document

/-- One part of a key in a message: in quotes unless it is a plain name. -/
def quotedPart (t : Text) : Text :=
  if t ≠ [] && t.all isBare then t
  else
    34 :: t.flatMap (fun b =>
      match b with
      | 34 => [92, 34]
      | 92 => [92, 92]
      | 8 => [92, 98]
      | 9 => [92, 116]
      | 10 => [92, 110]
      | 12 => [92, 102]
      | 13 => [92, 114]
      | b => if b < 32 || b = 127 then bytes "\\u00" ++ Text.hex [b] else [b]) ++ [34]

def keyText (key : Key) : Text := Text.joinWith [46] (key.map quotedPart)

end LineReview.Toml
