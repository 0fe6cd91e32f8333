import LineReview.JsonValue
import LineReview.Report.Basic

/-!
# Reports for programs

The JSON report follows the structure of a report. The SARIF log lists all
known rules, one result per diagnostic with the index of its rule, and one
notification per file that could not be reviewed.
-/

namespace LineReview.Report

/-- Content of the JSON report. -/
structure Summary where
  files : List FileResult
  problems : List FileProblem
  count : Nat
  scanned : Int
deriving DecidableEq, Repr

namespace Summary

/-- The first diagnostics of a list; all of them when the limit is not positive. -/
def capped (limit : Int) (ds : List Diagnostic) : List Diagnostic :=
  if limit ≤ 0 then ds else ds.take limit.toNat

/-- What the JSON report shows, with at most `limit` diagnostics per file. -/
def ofReport (s : Spelling) (limit : Int) (r : Report) : Summary :=
  let files := r.files.map fun f => { f with path := s.path f.path, diagnostics := capped limit f.diagnostics }
  { files
    problems := r.problems.map fun p => { p with path := s.path p.path }
    count := (files.flatMap (·.diagnostics)).length
    scanned := r.scanned }

def diagnosticJson (d : Diagnostic) : JsonValue :=
  .object ([("severity", .str d.severity.name), ("code", .string d.code.id),
      ("line", .nat d.line.toNat)]
    ++ (if d.col = 0 then [] else [("col", .nat d.col.toNat)])
    ++ [("message", .string d.message)])

def json (s : Summary) : JsonValue :=
  .object
    [("files", .array (s.files.map fun f =>
        .object [("path", .string f.path), ("diagnostics", .array (f.diagnostics.map diagnosticJson))])),
     ("failures", .array (s.problems.map fun p =>
        .object [("path", .string p.path), ("error", .string p.message)])),
     ("count", .nat s.count),
     ("scanned", .number (Text.decimalInt s.scanned))]

end Summary

structure SarifResult where
  code : Code
  /-- Place of the rule in the list of rules. -/
  ruleIndex : Nat
  severity : Severity
  message : Text
  path : Text
  line : UInt32
  col : UInt32
deriving DecidableEq, Repr

/-- Content of a SARIF log with one run. -/
structure SarifLog where
  tool : Text
  version : Text
  arguments : List Text
  rules : List (Code × String)
  results : List SarifResult
  problems : List FileProblem
deriving DecidableEq, Repr

/-- Who made the log, and how it was called. -/
structure SarifOptions where
  spelling : Spelling := {}
  tool : Text := []
  version : Text := []
  arguments : List Text := []
deriving DecidableEq, Repr

namespace SarifLog

/-- Place of a code among the known ones; zero for an unknown code. -/
def ruleIndex (c : Code) : Nat := (Code.catalogue.findIdx? fun r => r.1 = c).getD 0

def ofReport (o : SarifOptions) (r : Report) : SarifLog :=
  { tool := if o.tool = [] then bytes "codereview" else o.tool
    version := o.version
    arguments := o.arguments
    rules := Code.catalogue
    results := r.files.flatMap fun f =>
      f.diagnostics.map fun d =>
        { code := d.code, ruleIndex := ruleIndex d.code, severity := d.severity, message := d.message,
          path := o.spelling.path f.path, line := d.line, col := d.col }
    problems := r.problems.map fun p => { p with path := o.spelling.path p.path } }

def levelName (s : Severity) : String :=
  match s.level with
  | 2 => "error"
  | 1 => "warning"
  | _ => "note"

def isSuccessful (l : SarifLog) : Bool := l.problems.isEmpty

def message (t : Text) : JsonValue := .object [("text", .string t)]

def location (path : Text) (region : List (String × JsonValue)) : JsonValue :=
  .array [.object [("physicalLocation",
    .object (("artifactLocation", .object [("uri", .string path)]) :: region))]]

def resultJson (r : SarifResult) : JsonValue :=
  .object
    [("ruleId", .string r.code.id), ("ruleIndex", .nat r.ruleIndex),
     ("level", .str (levelName r.severity)), ("message", message r.message),
     ("locations", location r.path [("region",
        .object (("startLine", .nat r.line.toNat)
          :: (if r.col = 0 then [] else [("startColumn", .nat r.col.toNat)])))])]

def invocationJson (l : SarifLog) : JsonValue :=
  .object
    ((if l.arguments.isEmpty then [] else [("arguments", .array (l.arguments.map .string))])
      ++ [("executionSuccessful", .bool l.isSuccessful)]
      ++ (if l.problems.isEmpty then []
          else [("toolExecutionNotifications", .array (l.problems.map fun p =>
            .object [("level", .str "error"), ("message", message p.message),
              ("locations", location p.path [])]))]))

def json (l : SarifLog) : JsonValue :=
  let driver := [("name", .string l.tool)]
    ++ (if l.version = [] then [] else [("version", JsonValue.string l.version)])
    ++ [("rules", .array (l.rules.map fun (c, title) =>
        .object [("id", .string c.id), ("shortDescription", message (bytes title))]))]
  .object
    [("version", .str "2.1.0"),
     ("$schema", .str "https://json.schemastore.org/sarif-2.1.0.json"),
     ("runs", .array [.object
        [("tool", .object [("driver", .object driver)]),
         ("invocations", .array [l.invocationJson]),
         ("results", .array (l.results.map resultJson))]])]

end SarifLog

def jsonText (s : Spelling) (limit : Int) (r : Report) : Text :=
  (Summary.ofReport s limit r).json.indented 0 ++ [10]

def sarifText (o : SarifOptions) (r : Report) : Text := (SarifLog.ofReport o r).json.indented 0 ++ [10]

end LineReview.Report
