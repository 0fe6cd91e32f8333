import LineReview.CommandLine.Setup
import LineReview.FileSystem.Changes
import LineReview.Report.Human
import LineReview.Watch.Loop

/-!
# Watching a tree

A watch reports on a tree and reports again after changes. A session is what was
decided at its start; each report is a task of its own, so that changes can happen
between reports.
-/

namespace LineReview

/-- Something that happened to a file or folder below the watched one. -/
structure Notice where
  path : Text
  /-- It appeared under this path. -/
  isNew : Bool := false
  /-- Only its permissions changed. -/
  isOnlyMode : Bool := false
deriving DecidableEq, Repr

structure WatchSession where
  setup : Setup
  walker : Walker
  format : Report.Format
  color : Bool
  isQuiet : Bool
  quietPeriod : Duration
  trace : Option Setup.TracePlan

namespace WatchSession

/-- Does the notice ask for a new report? A new folder in the tree always does. -/
def isRelevant (s : WatchSession) (fs : FileSystem) (n : Notice) : Bool :=
  let isFolder := match fs.stat n.path with
    | .ok node => node.isFolder
    | .error _ => false
  if n.isOnlyMode then false
  else if n.isNew && isFolder then (s.walker.relative? fs n.path).isSome
  else s.walker.covers fs n.path

def start (e : Environment) (a : Arguments) (root : Text) : Task WatchSession := do
  let format ← Task.ofOption (.reportFormat (a.word "format")) (Report.Format.parse? (a.word "format"))
  if format != .text && format != .short then throw (.watchFormat format)
  let color ← Setup.color a
  let setup ← Setup.load e a root
  let trace ← Task.ofExcept id (Setup.tracePlan a)
  if let some p := trace then Setup.openTrace e p
  let walker ← (Task.ofExcept .walker (Walker.make root setup.settings.walk)).ensuring fun c =>
    match trace, Walker.make root setup.settings.walk with
    | some p, .error _ => Setup.closeTrace p c
    | _, _ => c
  pure
    { setup, walker, format, color, trace
      isQuiet := a.isOn "quiet", quietPeriod := a.duration "debounce" }

def headline (now : Instant) (r : ScanResult) : Text :=
  bytes "== " ++ now.clock ++ bytes ": " ++ Text.decimal r.scanned ++ bytes " files, "
    ++ Text.decimal r.count ++ bytes " diagnostics ==\n"

def report (e : Environment) (s : WatchSession) : Task Unit := do
  let t ← s.setup.scan e false false
  if !s.isQuiet then
    if !t.troubles.isEmpty then
      Task.tell (bytes "warning: " ++ Text.joinWith [10] t.troubles ++ [10])
    Task.tell (headline e.now t.result)
  let spelling : Report.Spelling := { base := s.setup.root, cwd := (← get).files.workingDirectory }
  Task.print (match s.format with
    | .short => t.result.report.short spelling
    | _ => t.result.report.text { color := s.color, spelling })

def close (s : WatchSession) (c : Console) : Console :=
  match s.trace with
  | some p => Setup.closeTrace p c
  | none => c

/-- What the watch is told about a change. A folder goes together with the files below it. -/
def notices (s : WatchSession) (before : FileSystem) : FileChange → List Notice
  | .put p _ => [{ path := FileChange.appearing before p, isNew := true }]
  | .remove p =>
    let below := (WalkItem.files (s.walker.items before)).filter fun q =>
      (Path.inside? before.workingDirectory p q).isSome
    { path := p } :: below.map ({ path := · })

/-- Lets files change, waits for the quiet period and reports if there is a reason to. The result
tells whether there was. -/
def follow (e : Environment) (s : WatchSession) (changes : List FileChange) : Task Bool := do
  let before := (← get).files
  let after := changes.foldl FileChange.apply before
  modify ({ · with files := after })
  let signals := (changes.flatMap (s.notices before)).map fun n =>
    Watch.Signal.change (s.isRelevant after n)
  if (Watch.Loop.run {} signals).settle none |>.scans |> (· = 0) then pure false
  else
    s.report e
    pure true

/-- A watch that ends after its first report. -/
def once (e : Environment) (a : Arguments) : Task Unit :=
  Setup.withRoot a fun root => do
    let s ← start e a root
    (s.report e).ensuring s.close

end WatchSession

end LineReview
