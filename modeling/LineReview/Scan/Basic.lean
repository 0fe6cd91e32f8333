import LineReview.Scan.Result
import LineReview.Scan.Worker
import LineReview.Timer

/-!
# Scans

A scan takes paths one after the other and starts a worker for each, as long as its
group is not over. Then it waits for the workers, ends its pass in the trace and
returns. Its moves are steps of its own, steps of some worker, and what happens to
its context. Every list of moves is one way the scan can go.

`Scan.sequential` is the way in which each worker finishes before the next path is
taken. The result is read off the workers in the order of their paths.
-/

namespace LineReview

namespace Scan

/-- What a scan itself does next. -/
inductive Loop where
  /-- Ask for a path. -/
  | pulling
  /-- See whether the group is over, and if it is not, queue the path. -/
  | pulled (path : Text)
  /-- Start the worker of the last path, as soon as there is room for it. -/
  | starting
  /-- Wait for the workers. -/
  | waiting
  /-- End the pass; `error?` is the error of the group. -/
  | gathered (error? : Option Interruption)
  /-- See whether the scan was called off. -/
  | ended (error? : Option Interruption)
  | returned (error? : Option Interruption)
deriving DecidableEq, Repr

/-- One thing that can happen next. -/
inductive Move where
  /-- The scan itself makes a step. -/
  | main
  /-- The worker with this index makes a step. -/
  | work (index : Nat)
  /-- The context of the scan is over. -/
  | cancel (e : Interruption)
  /-- The group hears that the context of the scan is over. -/
  | spread
deriving DecidableEq, Repr

end Scan

structure Scan where
  shared : Scan.Shared
  workers : List Scan.Worker := []
  loop : Scan.Loop := .pulling
  /-- Paths that were not asked for yet. -/
  ahead : List Text := []
  /-- Position of the scan itself in the trace. -/
  position : Trace.Position := .outside
  span : Trace.Span := {}

namespace Scan

/-- Begins a scan of some paths: the trace shows it as one pass. -/
def start (shared : Shared) (p : Trace.Position) (paths : List Text) : Scan :=
  let (recorder, position, span) := shared.recorder.start p .pass (bytes "review")
  { shared := { shared with recorder, group := { context := shared.context } }
    ahead := paths
    position
    span }

/-- How many workers have been started. The last one has not while there is no room for it. -/
def started (s : Scan) : Nat :=
  if s.loop = .starting then s.workers.length - 1 else s.workers.length

def busy (s : Scan) : Nat := (s.workers.take s.started).countP (!·.stage.isOver)

/-- The result as far as the workers have come. -/
def result (s : Scan) : ScanResult :=
  { files := s.workers.filterMap fun w =>
      if w.failure.isNone && !w.diagnostics.isEmpty then some ⟨w.path, w.diagnostics⟩ else none
    failures := s.workers.filterMap fun w => w.failure.map fun e => ⟨w.path, e⟩
    scanned := s.workers.length
    cached := s.workers.countP (·.isCached) }

def endPass (s : Scan) : Scan :=
  let r := s.result
  let span := s.span.set (bytes "files") (Text.decimal r.scanned)
    |>.set (bytes "cached") (Text.decimal r.cached)
    |>.set (bytes "diagnostics") (Text.decimal r.count)
    |>.set (bytes "failures") (Text.decimal r.failures.length)
  let (recorder, span) := s.shared.recorder.finish span []
  { s with shared := { s.shared with recorder }, span }

/-- The error that a scan returns: why its context is over, or else the error of its group. That the
group was called off is no error of the scan. -/
def finalError (context error? : Option Interruption) : Option Interruption :=
  context.or (error?.filter (· ≠ .canceled))

/-- A step of the scan itself. It does nothing while it waits for workers. -/
def advance (o : ScanOptions) (s : Scan) : Scan :=
  match s.loop with
  | .pulling =>
    match s.ahead with
    | [] => { s with loop := .waiting }
    | path :: ahead => { s with loop := .pulled path, ahead }
  | .pulled path =>
    if s.shared.group.context.isSome then { s with loop := .waiting }
    else
      { s with
        loop := .starting
        shared := s.shared.announce { file := path, status := .queued }
        workers := s.workers ++ [{ path, position := s.position }] }
  | .starting => if s.busy < o.limit then { s with loop := .pulling } else s
  | .waiting =>
    if s.workers.all (·.stage.isOver) then
      { s with
        loop := .gathered s.shared.group.error?
        shared := { s.shared with group := s.shared.group.stop .canceled } }
    else s
  | .gathered error? => { s.endPass with loop := .ended error? }
  | .ended error? => { s with loop := .returned (finalError s.shared.context error?) }
  | .returned _ => s

/-- Lets the worker with an index make a step, if there is one and it has been started. -/
def work (o : ScanOptions) (s : Scan) (index : Nat) : Scan :=
  match (s.workers.take s.started)[index]? with
  | none => s
  | some w =>
    let (shared, w) := w.step o s.shared
    { s with shared, workers := s.workers.set index w }

/-- The context of the scan is over. The first reason stays. -/
def cancel (s : Scan) (e : Interruption) : Scan :=
  { s with shared := { s.shared with context := s.shared.context.or (some e) } }

/-- The group hears of that. -/
def spread (s : Scan) : Scan :=
  match s.shared.context with
  | none => s
  | some e => { s with shared := { s.shared with group := s.shared.group.stop e } }

def move (o : ScanOptions) (s : Scan) : Move → Scan
  | .main => s.advance o
  | .work index => s.work o index
  | .cancel e => s.cancel e
  | .spread => s.spread

def moves (o : ScanOptions) (s : Scan) (ms : List Move) : Scan := ms.foldl (move o) s

/-! ## One file after the other -/

inductive Input where
  | path (p : Text)
  | cancel
deriving DecidableEq, Repr

def Input.path? : Input → Option Text
  | path p => some p
  | cancel => none

/-- Lets the last worker make all its steps, if it has been started. -/
def complete (o : ScanOptions) (s : Scan) : Scan :=
  match (s.workers.take s.started)[s.workers.length - 1]? with
  | none => s
  | some w =>
    let (shared, w) := Worker.run o s.shared w
    { s with shared, workers := s.workers.set (s.workers.length - 1) w }

def feed (o : ScanOptions) (s : Scan) : Input → Scan
  | .path _ => (((s.advance o).advance o).advance o).complete o
  | .cancel => (s.cancel .canceled).spread

/-- A whole scan, one file after the other. -/
def sequential (o : ScanOptions) (shared : Shared) (p : Trace.Position) (inputs : List Input) :
    Scan :=
  let s := inputs.foldl (feed o) (start shared p (inputs.filterMap Input.path?))
  s.moves o [.main, .main, .main, .main]

def phase (r : ScanResult) : Phase :=
  { name := bytes "review", note := Text.decimal r.scanned ++ bytes " files" }

end Scan

end LineReview
