import LineReview.CommandLine.Setup
import LineReview.Report.Machine

/-!
# Checking a tree once

The report goes to the output. Remarks go to the error output in this order:
what went wrong on the walk, the timings, the profiles, the trace.
-/

namespace LineReview.Check

def reportText (e : Environment) (args : List Text) (a : Arguments) (format : Report.Format)
    (color : Bool) (root cwd : Text) (t : TreeScan) : Text :=
  let spelling : Report.Spelling :=
    { mode := if a.isOn "fullpath" then .absolute else .given, base := root, cwd }
  let report := t.result.report
  match format with
  | .text =>
    let sources := if a.isOn "show-source" then some t.scan.shared.sources else none
    report.text { color, spelling, sources }
  | .short => report.short spelling
  | .json => report.jsonText spelling 0
  | .sarif =>
    report.sarifText
      { spelling, tool := bytes "codereview", version := e.build.version, arguments := args }

def warnings (troubles : List Text) : Text :=
  (troubles.flatMap (Text.splitOn 10)).flatMap fun l => bytes "warning: " ++ l ++ [10]

/-- Scans the tree and reports. A quiet check says nothing about a clean tree. -/
def review (e : Environment) (args : List Text) (a : Arguments) (format : Report.Format)
    (color showsProgress : Bool) (s : Setup) : Task Unit := do
  let t ← s.scan e (a.isOn "show-source") showsProgress
  let r := t.result
  let isQuiet := a.isOn "quiet"
  if !isQuiet then Task.tell (warnings t.troubles)
  let isSilent := isQuiet && r.isClean && format == .text
  if !isSilent then
    Task.print (reportText e args a format color s.root (← get).files.workingDirectory t)
  if a.isOn "timings" then
    let timer : Timer := Timer.add {} (Scan.phase r)
    let timer := if isSilent then timer
      else timer.add { name := bytes "render", note := bytes format.name }
    Task.tell timer.summary
  if a.isOn "fail-on-diagnostics" && !r.isClean then throw .findings

def run (e : Environment) (args : List Text) (a : Arguments) : Task Unit :=
  Setup.withRoot a fun root => do
    let format ← Task.ofOption (.reportFormat (a.word "format")) (Report.Format.parse? (a.word "format"))
    let progress ← Task.ofOption (.progressMode (a.word "ui")) (Progress.Mode.parse? (a.word "ui"))
    let color ← Setup.color a
    let s ← Setup.load e a root
    Setup.withTrace e a <| Setup.withProfiles a <|
      review e args a format color (progress == .on) s

end LineReview.Check
