import LineReview.Path.Climb
import LineReview.Settings
import LineReview.Toml.Document

/-!
# Project files

A project file changes settings for the tree below its folder. It has four
sections with a fixed set of keys. A key is recognised in any case, but only a key
in small letters changes a setting. Values are checked before anything is
changed; keys that are not known are errors.
-/

namespace LineReview

inductive ProjectError where
  /-- It cannot be read, is no TOML document, or a value is of the wrong kind. -/
  | malformed
  | unknownKeys (keys : List Toml.Key)
  | noExtensions
  | badExtension (e : Text)
  | negativeJobs
  /-- A number of the section `format` is not positive. -/
  | notPositive (key : String)
  | badMeasure (t : Text)
  | badSeverity (sect : String) (t : Text)
deriving DecidableEq, Repr

namespace ProjectError

def cause : ProjectError → Text
  | malformed => bytes "failed to parse TOML: malformed"
  | unknownKeys keys => bytes "unknown keys: " ++ Text.joinWith (bytes ", ") (keys.map Toml.keyText)
  | noExtensions => bytes "[scan].extensions must not be empty"
  | badExtension e => bytes "[scan].extensions: invalid entry " ++ Text.quoted e
  | negativeJobs => bytes "[scan].jobs must not be negative"
  | notPositive key => bytes "[format]." ++ bytes key ++ bytes " must be positive"
  | badMeasure t => bytes "[format].measure: " ++ LayoutOptions.unknownMeasure t
  | badSeverity sect t =>
    bytes "[" ++ bytes sect ++ bytes "].severity: " ++ Severity.unknownMessage t

def message (path : Text) (e : ProjectError) : Text := path ++ bytes ": " ++ e.cause

end ProjectError

structure ProjectFile where
  path : Text
  document : Toml.Document

namespace ProjectFile

def fileName : Text := bytes ".codereview.toml"

inductive Kind where
  | texts
  | text
  | integer
  | switch
deriving DecidableEq, Repr

def fields (sect : String) : List (String × Kind) :=
  match sect with
  | "scan" => [("extensions", .texts), ("ignore_file", .text), ("jobs", .integer)]
  | "format" =>
    [("max_line_length", .integer), ("measure", .text), ("indent", .switch),
     ("mixed_indent", .switch), ("indent_width", .integer), ("tab_width", .integer),
     ("severity", .text)]
  | "classifier" =>
    [("skip_comments", .switch), ("skip_using_directives", .switch), ("enumerators", .switch)]
  | "naming" => [("severity", .text)]
  | _ => []

def sections : List String := ["scan", "format", "classifier", "naming"]

/-- Is the name a spelling of the word in any case? -/
def spells (word : String) (name : Text) : Bool := Text.foldWord name == bytes word

/-- The section that a name in a document means. -/
def section? (name : Text) : Option String := sections.find? (spells · name)

def field? (sect : String) (name : Text) : Option (String × Kind) :=
  (fields sect).find? fun f => spells f.1 name

def Kind.fits : Kind → Toml.Value → Bool
  | .text, .string _ => true
  | .integer, .integer _ => true
  | .switch, .bool _ => true
  | .texts, .array items => items.all fun v => match v with
    | .string _ => true
    | _ => false
  | _, _ => false

/-- Is every known name of the document given a value of its kind? -/
def isWellTyped (root : Toml.Table) : Bool :=
  root.all fun (s, v) =>
    match section? s, v with
    | none, _ => true
    | some sect, .table entries => entries.all fun (k, w) =>
        match field? sect k with
        | some f => f.2.fits w
        | none => true
    | some _, _ => false

def isKnown : Toml.Key → Bool
  | [s] => (section? s).isSome
  | [s, k] => ((section? s).bind (field? · k)).isSome
  | _ => false

/-- The value that a document has for a key, whatever the spelling; the last one counts. -/
def value? (f : ProjectFile) (sect key : String) : Option Toml.Value :=
  let entries := f.document.root.flatMap fun (s, v) =>
    match v with
    | .table entries => if spells sect s then entries else []
    | _ => []
  (entries.reverse.find? fun e => spells key e.1).map (·.2)

def text (f : ProjectFile) (sect key : String) : Text :=
  match f.value? sect key with
  | some (.string t) => t
  | _ => []

def integer (f : ProjectFile) (sect key : String) : Int64 :=
  match f.value? sect key with
  | some (.integer n) => n
  | _ => 0

def switch (f : ProjectFile) (sect key : String) : Bool :=
  match f.value? sect key with
  | some (.bool b) => b
  | _ => false

def texts (f : ProjectFile) (sect key : String) : List Text :=
  match f.value? sect key with
  | some (.array items) => items.filterMap fun v => match v with
    | .string t => some t
    | _ => none
  | _ => []

/-- Does the document have the key in this very spelling? -/
def defines (f : ProjectFile) (sect key : String) : Bool :=
  (f.document.root.get? [bytes sect, bytes key]).isSome

/-- An extension of which nothing but stars, dots and white space is written. -/
def isBlankExtension (e : Text) : Bool :=
  Text.trim (e.dropWhile fun b => b == 42 || b == 46) == []

/-- The first thing that is wrong with the values of a file. -/
def fault? (f : ProjectFile) : Option ProjectError :=
  let extensions := f.texts "scan" "extensions"
  let notPositive (key : String) : Bool := f.defines "format" key && f.integer "format" key ≤ 0
  let badSeverity (sect : String) : Bool :=
    f.defines sect "severity" && (Severity.parse? (f.text sect "severity")).isNone
  if f.defines "scan" "extensions" && extensions.isEmpty then some .noExtensions
  else match if f.defines "scan" "extensions" then extensions.find? isBlankExtension else none with
  | some e => some (.badExtension e)
  | none =>
    if f.integer "scan" "jobs" < 0 then some .negativeJobs
    else if notPositive "max_line_length" then some (.notPositive "max_line_length")
    else if notPositive "indent_width" then some (.notPositive "indent_width")
    else if notPositive "tab_width" then some (.notPositive "tab_width")
    else if (LayoutOptions.measure? (f.text "format" "measure")).isNone then
      some (.badMeasure (f.text "format" "measure"))
    else if badSeverity "format" then some (.badSeverity "format" (f.text "format" "severity"))
    else if badSeverity "naming" then some (.badSeverity "naming" (f.text "naming" "severity"))
    else none

def parse (path content : Text) : Except ProjectError ProjectFile :=
  match Toml.Document.read? content with
  | none => .error .malformed
  | some d =>
    let unknown := d.keys.filter fun k => !isKnown k
    if !isWellTyped d.root then .error .malformed
    else if !unknown.isEmpty then .error (.unknownKeys unknown)
    else
      let f : ProjectFile := ⟨path, d⟩
      match f.fault? with
      | some e => .error e
      | none => .ok f

def load (fs : FileSystem) (path : Text) : Except ProjectError ProjectFile :=
  match fs.read path with
  | .error _ => .error .malformed
  | .ok content => parse path content

def folder (f : ProjectFile) : Text := Path.parent f.path

/-- The settings with every defined key carried over. -/
def apply (f : ProjectFile) (s : Settings) : Settings :=
  let given {α : Type} (sect key : String) (get : String → String → α) (old : α) : α :=
    if f.defines sect key then get sect key else old
  let severity (sect key : String) : Severity := (Severity.parse? (f.text sect key)).getD .info
  let measure (sect key : String) : Text := (LayoutOptions.measure? (f.text sect key)).getD []
  let layout := s.review.layout
  let classifier := s.review.classifier
  { review :=
      { s.review with
        layout :=
          { maxLineLength := given "format" "max_line_length" f.integer layout.maxLineLength
            measure := given "format" "measure" measure layout.measure
            indent := given "format" "indent" f.switch layout.indent
            mixedIndent := given "format" "mixed_indent" f.switch layout.mixedIndent
            indentWidth := given "format" "indent_width" f.integer layout.indentWidth
            tabWidth := given "format" "tab_width" f.integer layout.tabWidth
            severity := given "format" "severity" severity layout.severity }
        classifier :=
          { skipComments := given "classifier" "skip_comments" f.switch classifier.skipComments
            skipUsingDirectives :=
              given "classifier" "skip_using_directives" f.switch classifier.skipUsingDirectives
            enumerators := given "classifier" "enumerators" f.switch classifier.enumerators }
        namingSeverity := given "naming" "severity" severity s.review.namingSeverity }
    walk :=
      { extensions := given "scan" "extensions" f.texts s.walk.extensions
        ignoreFile := given "scan" "ignore_file" f.text s.walk.ignoreFile }
    jobs := given "scan" "jobs" f.integer s.jobs }

/-! ## Finding the file of a tree -/

/-- Looks for a project file in a folder and, as long as there is none, in the folder above. A folder
where this cannot be told ends the search, and so does the root, which is its own parent. -/
def findFrom (stat : Text → Except AccessError Node) (dir : Text) :
    Except AccessError (Option Text) :=
  let candidate := Path.join dir fileName
  match stat candidate with
  | .ok _ => .ok (some candidate)
  | .error e =>
    if e.reason ≠ .notFound then .error e
    else if _h : Path.parent dir = dir then .ok none
    else findFrom stat (Path.parent dir)
termination_by Path.height dir
decreasing_by exact Path.height_parent_lt _h

/-- The project file of a folder: in the folder itself or in the nearest one above it. -/
def find (fs : FileSystem) (start : Text) : Except AccessError (Option Text) :=
  findFrom fs.stat (Path.absolute fs.workingDirectory start)

def findMessage (e : AccessError) : Text :=
  bytes "failed to stat " ++ Text.quoted e.path ++ bytes ": " ++ e.message

inductive SearchError where
  | search (e : AccessError)
  | file (path : Text) (e : ProjectError)
deriving DecidableEq, Repr

def SearchError.message : SearchError → Text
  | search e => findMessage e
  | file path e => e.message path

def loadAt (fs : FileSystem) (path : Text) : Except SearchError ProjectFile :=
  (load fs path).mapError (.file path)

def discover (fs : FileSystem) (start : Text) : Except SearchError (Option ProjectFile) :=
  match find fs start with
  | .error e => .error (.search e)
  | .ok none => .ok none
  | .ok (some path) => (loadAt fs path).map some

end ProjectFile

end LineReview
