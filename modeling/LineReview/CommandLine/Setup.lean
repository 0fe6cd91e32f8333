import LineReview.CommandLine.Console
import LineReview.Scan.Tree

/-!
# Before and after a scan

What `check` and `watch` have in common: the folder to scan, the settings, the
cache, the trace and the profiles. Later sources of settings override earlier ones: the
standard values, the project file, the flags.
-/

namespace LineReview

/-- Everything that is decided before a scan. -/
structure Setup where
  root : Text
  settings : Settings
  cache : Option Cache
deriving DecidableEq, Repr

namespace Setup

def usageLine : Text := bytes "usage: codereview check <directory>\n"

inductive RootError where
  | missing
  | unreachable (e : AccessError)
  | notFolder (path : Text)
deriving DecidableEq, Repr

def RootError.message : RootError → Text
  | missing => usageLine
  | unreachable e => bytes "error: invalid argument: " ++ e.message ++ [10]
  | notFolder p => bytes "error: invalid argument: " ++ p ++ bytes " is not a directory\n"

def rootOf (fs : FileSystem) (operands : List Text) : Except RootError Text :=
  match operands with
  | [] => .error .missing
  | p :: _ =>
    if Text.trim p = [] then .error .missing
    else match fs.stat p with
      | .error e => .error (.unreachable e)
      | .ok n => if n.isFolder then .ok p else .error (.notFolder p)

/-- Does something with the folder that the operands name. Without such a folder there is only a
remark; that is no failure. -/
def withRoot (a : Arguments) (act : Text → Task Unit) : Task Unit := do
  match rootOf (← get).files a.operands with
  | .ok root => act root
  | .error e => Task.tell e.message

/-- Is the output coloured? Without a terminal `auto` means no. -/
def color (a : Arguments) : Task Bool :=
  let t := a.word "color"
  if t = bytes "on" then pure true
  else if t = bytes "off" || t = bytes "auto" then pure false
  else throw (.color t)

def projectFile (fs : FileSystem) (a : Arguments) (root : Text) :
    Except ProjectFile.SearchError (Option ProjectFile) :=
  if a.isOn "no-config" then .ok none
  else if a.word "config" = [] then ProjectFile.discover fs root
  else (ProjectFile.loadAt fs (a.word "config")).map some

def fileSettings : Option ProjectFile → Settings
  | some f => f.apply {}
  | none => {}

def cacheFolder (e : Environment) (a : Arguments) : Except CommandFailure (Option Text) :=
  let named := a.word "cache-dir"
  if named ≠ [] then .ok (some named)
  else if !a.isOn "cache" then .ok none
  else if e.cacheHome ≠ [] then .ok (some (Path.join e.cacheHome (bytes "codereview")))
  else match e.home with
    | some home => .ok (some (Path.join (Path.join home (bytes ".cache")) (bytes "codereview")))
    | none => .error .noHome

def openCache (e : Environment) (a : Arguments) : Task (Option Cache) := do
  match ← Task.ofExcept id (cacheFolder e a) with
  | none => pure none
  | some folder =>
    let (cache, files) ← Task.ofExcept .cache (Cache.openAt (← get).files folder)
    modify ({ · with files })
    pure (some cache)

def load (e : Environment) (a : Arguments) (root : Text) : Task Setup := do
  let file ← Task.ofExcept .project (projectFile (← get).files a root)
  let settings ← Task.ofExcept .scanFlags ((ScanFlags.ofArguments a).apply (fileSettings file))
  let cache ← openCache e a
  pure { root, settings, cache }

/-! ## Trace -/

structure TracePlan where
  level : Trace.Level
  mode : Trace.Mode
  path : Text
  ringSize : Int
deriving DecidableEq, Repr

def TracePlan.isShown (p : TracePlan) : Bool := p.path = [] || p.path = [45]

/-- The trace that the flags ask for. A destination alone asks for the level `phase`. -/
def tracePlan (a : Arguments) : Except CommandFailure (Option TracePlan) :=
  let path := a.word "trace"
  match Trace.Level.parse? (a.word "trace-level") with
  | none => .error (.traceLevel (a.word "trace-level"))
  | some level =>
    let level := if !level.isOn && path ≠ [] then Trace.Level.phase else level
    if !level.isOn then .ok none
    else match Trace.Mode.parse? (a.word "trace-mode") with
      | none => .error (.traceMode (a.word "trace-mode"))
      | some mode =>
        .ok (some { level, mode, path, ringSize := (a.number "trace-ring-size").toInt })

def openTrace (e : Environment) (p : TracePlan) : Task Unit := do
  if !p.isShown then Task.createFile .traceFile p.path
  let recorder : Trace.Recorder :=
    { tracer := .make p.level p.mode p.path p.ringSize
      stamp := fun ev => { ev with time := e.now } }
  modify ({ · with recorder, traceShown := if p.isShown then some 0 else none })

/-- Ends a trace: what is pending reaches its destination. -/
def closeTrace (p : TracePlan) (c : Console) : Console :=
  let tracer := c.recorder.tracer.close
  let c := { c with recorder := { c.recorder with tracer } }
  if p.isShown then c.showTrace
  else match c.files.write p.path tracer.output with
    | .ok files => { c with files }
    | .error _ => c

def withTrace (e : Environment) (a : Arguments) (t : Task Unit) : Task Unit := do
  match ← Task.ofExcept id (tracePlan a) with
  | none => t
  | some p =>
    openTrace e p
    t.ensuring (closeTrace p)

/-! ## Profiles -/

/-- Writes the profile of the memory, if there is one to write. Only its file is of interest here. -/
def writeMemoryProfile (path : Text) (c : Console) : Console :=
  if path = [] then c
  else match c.files.write path [] with
    | .ok files => { c with files }
    | .error e => c.tell (bytes "profiling: failed to write heap profile: " ++ e.message ++ [10])

def withProfiles (a : Arguments) (t : Task Unit) : Task Unit := do
  if a.word "cpu-profile" ≠ [] then Task.createFile .cpuProfile (a.word "cpu-profile")
  if a.word "runtime-trace" ≠ [] then Task.createFile .runtimeTrace (a.word "runtime-trace")
  t.ensuring (writeMemoryProfile (a.word "mem-profile"))

/-! ## Scan -/

def scanOptions (s : Setup) (e : Environment) (keepSources : Bool) : ScanOptions :=
  { reviewer := { options := s.settings.review, widths := e.widths }
    cache := s.cache
    version := e.build.version
    keepSources
    jobs := s.settings.jobs
    processors := e.processors }

/-- Scans the tree, as one run in the trace. The progress view cannot be shown. -/
def scan (s : Setup) (e : Environment) (keepSources showsProgress : Bool) : Task TreeScan := do
  let c ← get
  let (recorder, position, span) := c.recorder.start .top .run (bytes "scan")
  let span := span.set (bytes "root") s.root
  modify ({ · with recorder })
  let scanned : Task (TreeScan × Trace.Span) := do
    let walker ← Task.ofExcept .walker (Walker.make s.root s.settings.walk)
    if showsProgress then throw .noTerminal
    let shared : Scan.Shared := { files := c.files, recorder }
    let t := TreeScan.run (s.scanOptions e keepSources) shared position walker
    modify ({ · with files := t.scan.shared.files, recorder := t.scan.shared.recorder })
    pure (t, span.set (bytes "files") (Text.decimal t.result.scanned))
  let close (span : Trace.Span) (c : Console) : Console :=
    { c with recorder := (c.recorder.finish span []).1 }
  tryCatch
    (do
      let (t, span) ← scanned
      modify (close span)
      pure t)
    (fun f => do
      modify (close span)
      throw f)

end Setup

end LineReview
