import LineReview.Diagnostic.Basic

/-!
# Packed cache entries

An entry is stored in a compact binary form: maps from short names to values,
where every value starts with a byte that tells its type and, for longer
values, its length. Writing always takes the same width for a number. Reading
accepts any width, a missing value for any field, unknown fields, and lists in
place of maps when they have as many values as there are fields.
-/

namespace LineReview

/-- The kept outcome of reviewing one file. -/
structure CacheEntry where
  schema : UInt16 := 0
  path : Text := []
  /-- `none` when the review found nothing. -/
  diagnostics : Option (List Diagnostic) := none
deriving DecidableEq, Repr

namespace Packed

/-- The `n` low bytes of a number, the most significant first. -/
def bigEndian : Nat → Nat → Text
  | 0, _ => []
  | n + 1, v => bigEndian n (v / 256) ++ [(v % 256).toUInt8]

def ofBigEndian (t : Text) : Nat := t.foldl (fun n b => 256 * n + b.toNat) 0

def byte (n : UInt8) : Text := [0xCC, n]

def word (n : UInt16) : Text := 0xCD :: bigEndian 2 n.toNat

def long (n : UInt32) : Text := 0xCE :: bigEndian 4 n.toNat

/-- A text with the shortest length mark that fits. -/
def text (t : Text) : Text :=
  let n := t.length
  (if n < 32 then [(0xA0 + n).toUInt8]
   else if n < 256 then 0xD9 :: bigEndian 1 n
   else if n < 65536 then 0xDA :: bigEndian 2 n
   else 0xDB :: bigEndian 4 n) ++ t

def listMark (n : Nat) : Text :=
  if n < 16 then [(0x90 + n).toUInt8]
  else if n < 65536 then 0xDC :: bigEndian 2 n
  else 0xDD :: bigEndian 4 n

def diagnostic (d : Diagnostic) : Text :=
  0x85 :: text (bytes "sev") ++ byte d.severity.level
    ++ text (bytes "code") ++ word d.code.number
    ++ text (bytes "line") ++ long d.line
    ++ text (bytes "col") ++ long d.col
    ++ text (bytes "msg") ++ text d.message

def diagnostics : Option (List Diagnostic) → Text
  | none => [0xC0]
  | some ds => listMark ds.length ++ ds.flatMap diagnostic

def entry (e : CacheEntry) : Text :=
  0x83 :: text (bytes "schema") ++ word e.schema
    ++ text (bytes "path") ++ text e.path
    ++ text (bytes "diags") ++ diagnostics e.diagnostics

/-- Reads a value from the front of a text. -/
abbrev Reader (α : Type) := Text → Option (α × Text)

def takeBytes (n : Nat) : Reader Text := fun t =>
  if n ≤ t.length then some (t.take n, t.drop n) else none

def takeByte : Reader UInt8
  | [] => none
  | b :: t => some (b, t)

def takeNumber (n : Nat) : Reader Nat := fun t => do
  let (b, t) ← takeBytes n t
  pure (ofBigEndian b, t)

/-- A number of `n` bytes in two's complement, widened to 64 bits. -/
def takeSigned (n : Nat) : Reader Nat := fun t => do
  let (v, t) ← takeNumber n t
  pure (if v < Nat.pow 2 (8 * n - 1) then v else v + Nat.pow 2 64 - Nat.pow 2 (8 * n), t)

/-- A whole number of any width, modulo 2 ^ 64; a missing value is zero. -/
def readNumber : Reader Nat := fun t => do
  let (c, t) ← takeByte t
  if c = 0xC0 then pure (0, t)
  else if c ≤ 0x7F then pure (c.toNat, t)
  else if 0xE0 ≤ c then pure (c.toNat + Nat.pow 2 64 - 256, t)
  else match c with
    | 0xCC => takeNumber 1 t
    | 0xCD => takeNumber 2 t
    | 0xCE => takeNumber 4 t
    | 0xCF => takeNumber 8 t
    | 0xD0 => takeSigned 1 t
    | 0xD1 => takeSigned 2 t
    | 0xD2 => takeSigned 4 t
    | 0xD3 => takeSigned 8 t
    | _ => none

def textLength (c : UInt8) : Reader Nat := fun t =>
  if c = 0xC0 then some (0, t)
  else if 0xA0 ≤ c && c ≤ 0xBF then some (c.toNat % 32, t)
  else match c with
    | 0xD9 | 0xC4 => takeNumber 1 t
    | 0xDA | 0xC5 => takeNumber 2 t
    | 0xDB | 0xC6 => takeNumber 4 t
    | _ => none

/-- A text or plain bytes; a missing value is empty. -/
def readText : Reader Text := fun t => do
  let (c, t) ← takeByte t
  let (n, t) ← textLength c t
  takeBytes n t

/-- Number of members of a map after its type byte; `none` inside for a missing value. -/
def mapLength (c : UInt8) : Reader (Option Nat) := fun t =>
  if c = 0xC0 then some (none, t)
  else if 0x80 ≤ c && c ≤ 0x8F then some (some (c.toNat % 16), t)
  else match c with
    | 0xDE => (takeNumber 2 t).map fun (n, t) => (some n, t)
    | 0xDF => (takeNumber 4 t).map fun (n, t) => (some n, t)
    | _ => none

def listLength (c : UInt8) : Reader (Option Nat) := fun t =>
  if c = 0xC0 then some (none, t)
  else if 0x90 ≤ c && c ≤ 0x9F then some (some (c.toNat % 16), t)
  else match c with
    | 0xDC => (takeNumber 2 t).map fun (n, t) => (some n, t)
    | 0xDD => (takeNumber 4 t).map fun (n, t) => (some n, t)
    | _ => none

/-- Bytes that follow the type byte of an extension value, its own type included. -/
def extensionLength (c : UInt8) : Reader Nat := fun t =>
  match c with
  | 0xD4 => some (2, t)
  | 0xD5 => some (3, t)
  | 0xD6 => some (5, t)
  | 0xD7 => some (9, t)
  | 0xD8 => some (17, t)
  | 0xC7 => (takeNumber 1 t).map fun (n, t) => (n + 1, t)
  | 0xC8 => (takeNumber 2 t).map fun (n, t) => (n + 1, t)
  | 0xC9 => (takeNumber 4 t).map fun (n, t) => (n + 1, t)
  | _ => none

/-- Passes over `n` values of any kind. The fuel bounds the number of values looked at; every value
takes at least one byte, so the length of the text is enough. -/
def skip : Nat → Nat → Text → Option Text
  | _, 0, t => some t
  | 0, _ + 1, _ => none
  | fuel + 1, n + 1, t => do
    let (c, t) ← takeByte t
    if c ≤ 0x7F || 0xE0 ≤ c || c = 0xC0 || c = 0xC2 || c = 0xC3 then skip fuel n t
    else if c = 0xCC || c = 0xD0 then skip fuel n (← takeBytes 1 t).2
    else if c = 0xCD || c = 0xD1 then skip fuel n (← takeBytes 2 t).2
    else if c = 0xCE || c = 0xD2 || c = 0xCA then skip fuel n (← takeBytes 4 t).2
    else if c = 0xCF || c = 0xD3 || c = 0xCB then skip fuel n (← takeBytes 8 t).2
    else match textLength c t with
      | some (k, t) => skip fuel n (← takeBytes k t).2
      | none =>
        match mapLength c t with
        | some (k, t) => skip fuel (n + 2 * k.getD 0) t
        | none =>
          match listLength c t with
          | some (k, t) => skip fuel (n + k.getD 0) t
          | none =>
            match extensionLength c t with
            | some (k, t) => skip fuel n (← takeBytes k t).2
            | none => none

def skipValue (t : Text) : Option Text := skip t.length 1 t

/-- Reads the value of one field into a record; `none` for a name that is no field. -/
abbrev FieldReader (α : Type) := Text → α → Option (Text → Option (α × Text))

/-- Reads `n` members of a map into a record. The members are bounded by the text, each taking at
least two bytes. -/
def readMembers (field : FieldReader α) : Nat → α → Reader α
  | 0, a => fun t => some (a, t)
  | n + 1, a => fun t => do
    let (name, t) ← readText t
    match field name a with
    | some read =>
      let (a, t) ← read t
      readMembers field n a t
    | none => readMembers field n a (← skipValue t)

def readInOrder (field : FieldReader α) : List String → α → Reader α
  | [], a => fun t => some (a, t)
  | name :: names, a => fun t => do
    let read ← field (bytes name) a
    let (a, t) ← read t
    readInOrder field names a t

/-- Reads a record: a map of its fields, a list of all of them, or a missing value. -/
def readRecord (field : FieldReader α) (names : List String) (zero old : α) : Reader α := fun t => do
  let (c, t) ← takeByte t
  match mapLength c t with
  | some (none, t) => pure (zero, t)
  | some (some n, t) => if t.length < n then none else readMembers field n old t
  | none =>
    match listLength c t with
    | some (n, t) =>
      if n.getD 0 = 0 then pure (zero, t)
      else if n = some names.length then readInOrder field names old t
      else none
    | none => none

def noDiagnostic : Diagnostic := ⟨⟨0⟩, ⟨0⟩, 0, 0, []⟩

def diagnosticField : FieldReader Diagnostic := fun name d =>
  if name = bytes "sev" then some fun t => do
    let (n, t) ← readNumber t
    pure ({ d with severity := ⟨n.toUInt8⟩ }, t)
  else if name = bytes "code" then some fun t => do
    let (n, t) ← readNumber t
    pure ({ d with code := ⟨n.toUInt16⟩ }, t)
  else if name = bytes "line" then some fun t => do
    let (n, t) ← readNumber t
    pure ({ d with line := n.toUInt32 }, t)
  else if name = bytes "col" then some fun t => do
    let (n, t) ← readNumber t
    pure ({ d with col := n.toUInt32 }, t)
  else if name = bytes "msg" then some fun t => do
    let (m, t) ← readText t
    pure ({ d with message := m }, t)
  else none

def readDiagnostic (old : Diagnostic) : Reader Diagnostic :=
  readRecord diagnosticField ["sev", "code", "line", "col", "msg"] noDiagnostic old

/-- Reads `n` diagnostics over those that a list already holds. -/
def readEach : Nat → List Diagnostic → Reader (List Diagnostic)
  | 0, _ => fun t => some ([], t)
  | n + 1, old => fun t => do
    let (d, t) ← readDiagnostic (old.headD noDiagnostic) t
    let (ds, t) ← readEach n old.tail t
    pure (d :: ds, t)

def readDiagnostics (old : Option (List Diagnostic)) : Reader (Option (List Diagnostic)) := fun t => do
  let (c, t) ← takeByte t
  let (n, t) ← listLength c t
  match n with
  | none => pure (none, t)
  | some n =>
    if t.length < n then none
    else
      let (ds, t) ← readEach n (old.getD []) t
      pure (some ds, t)

def entryField : FieldReader CacheEntry := fun name e =>
  if name = bytes "schema" then some fun t => do
    let (n, t) ← readNumber t
    pure ({ e with schema := n.toUInt16 }, t)
  else if name = bytes "path" then some fun t => do
    let (p, t) ← readText t
    pure ({ e with path := p }, t)
  else if name = bytes "diags" then some fun t => do
    let (ds, t) ← readDiagnostics e.diagnostics t
    pure ({ e with diagnostics := ds }, t)
  else none

/-- Reads an entry; bytes after it are ignored. -/
def readEntry (t : Text) : Option CacheEntry :=
  (readRecord entryField ["schema", "path", "diags"] {} {} t).map (·.1)

end Packed

end LineReview
