import LineReview.CommandLine.ScanFlags
import LineReview.ProjectFile
import LineReview.Cache.Store
import LineReview.Progress.View
import LineReview.Report.Basic
import LineReview.Trace.Span
import LineReview.Version

/-!
# What a command sees and changes

A command reads and writes files, prints to two outputs and adds to a trace. It
ends well or with a failure, and whatever it did before a failure stays done.
-/

namespace LineReview

inductive CommandFailure where
  | arguments (e : ArgumentError)
  | reportFormat (t : Text)
  | progressMode (t : Text)
  | color (t : Text)
  | project (e : ProjectFile.SearchError)
  | scanFlags (e : ScanFlagError)
  | cache (e : AccessError)
  /-- No folder for the cache is named, and there is no home folder. -/
  | noHome
  | traceLevel (t : Text)
  | traceMode (t : Text)
  | traceFile (e : AccessError)
  | cpuProfile (e : AccessError)
  | runtimeTrace (e : AccessError)
  | walker (e : WalkerError)
  /-- The progress view needs a terminal. -/
  | noTerminal
  | watchFormat (f : Report.Format)
  | versionFormat (t : Text)
  /-- There are findings, and they were asked to count as a failure. -/
  | findings
deriving DecidableEq, Repr

namespace CommandFailure

/-- What is said about a failure; findings speak for themselves. -/
def message? : CommandFailure → Option Text
  | arguments e => some e.message
  | reportFormat t => some (Report.Format.unknownMessage t)
  | progressMode t => some (Progress.Mode.unknownMessage t)
  | color t =>
    some (bytes "invalid --color value " ++ Text.quoted t ++ bytes " (expected auto|on|off)")
  | project e => some e.message
  | scanFlags e => some e.message
  | cache e => some (bytes "failed to open cache: " ++ Cache.openMessage e)
  | noHome => some (bytes "failed to open cache: $HOME is not defined")
  | traceLevel t => some (bytes "invalid trace level: " ++ Trace.Level.unknownMessage t)
  | traceMode t => some (Trace.Mode.unknownMessage t)
  | traceFile e =>
    some (bytes "failed to create tracer: failed to open trace output: " ++ e.message)
  | cpuProfile e => some (bytes "failed to start cpu profile: " ++ e.message)
  | runtimeTrace e => some (bytes "failed to start trace: " ++ e.message)
  | walker e => some e.message
  | noTerminal => some (bytes "could not open a new TTY: no terminal")
  | watchFormat f => some (bytes ("watch supports text and short output, not " ++ f.name))
  | versionFormat t =>
    some (bytes "unsupported format " ++ Text.quoted t ++ bytes " (must be pretty or json)")
  | findings => none

end CommandFailure

/-- What a command finds around it. -/
structure Environment where
  /-- The home folder, if there is one. -/
  home : Option Text := none
  /-- The folder for caches; empty when none is set. -/
  cacheHome : Text := []
  build : Build := {}
  /-- The moment that trace events and reports carry. -/
  now : Instant := {}
  /-- How the language of the process has code points of ambiguous width drawn. -/
  widths : Text.Widths := .western
  processors : Nat := 1

structure Console where
  files : FileSystem
  stdout : Text := []
  stderr : Text := []
  recorder : Trace.Recorder := {}
  /-- How much of the trace is on the error output, when it goes there. -/
  traceShown : Option Nat := none

namespace Console

def print (t : Text) (c : Console) : Console := { c with stdout := c.stdout ++ t }

/-- Brings what the tracer has passed on to the error output. -/
def showTrace (c : Console) : Console :=
  match c.traceShown with
  | none => c
  | some n =>
    let output := c.recorder.tracer.output
    { c with stderr := c.stderr ++ output.drop n, traceShown := some output.length }

/-- Prints to the error output, behind the part of the trace that is due. -/
def tell (t : Text) (c : Console) : Console :=
  let c := c.showTrace
  { c with stderr := c.stderr ++ t }

end Console

abbrev Task := ExceptT CommandFailure (StateM Console)

namespace Task

def ofExcept (wrap : ε → CommandFailure) : Except ε α → Task α
  | .ok a => pure a
  | .error e => throw (wrap e)

def ofOption (f : CommandFailure) : Option α → Task α
  | some a => pure a
  | none => throw f

/-- Does something after the task, whether it failed or not. -/
def ensuring (t : Task α) (last : Console → Console) : Task α :=
  ExceptT.mk fun c =>
    let (r, c) := t.run c
    (r, last c)

def print (t : Text) : Task Unit := modify (·.print t)

def tell (t : Text) : Task Unit := modify (·.tell t)

/-- Creates a file with nothing in it, or empties one. -/
def createFile (wrap : AccessError → CommandFailure) (path : Text) : Task Unit := do
  let files ← ofExcept wrap ((← get).files.write path [])
  modify ({ · with files })

end Task

end LineReview
