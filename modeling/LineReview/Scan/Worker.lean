import LineReview.Cache.Store
import LineReview.Progress.Event
import LineReview.Review.Outcome
import LineReview.Scan.Group
import LineReview.Source.FileSet
import LineReview.Trace.Span

/-!
# Workers of a scan

Every file of a scan is reviewed by a worker of its own, in small steps. What
workers share is changed by one step at a time, so the steps of several workers
may alternate in any order. A step reads the file, asks the cache, finds the
diagnostics, stores them, or says one thing to the trace or to the progress
view.

Before it begins, a worker looks whether its group is over; then it comes back
with the reason as its error. A worker that has begun goes on to its end and comes
back without one.

`Worker.run` takes all the steps of one worker; `Stage.rank` decreases with each
of them, unless the worker reviews a file for ever.
-/

namespace LineReview

structure ScanOptions where
  reviewer : Reviewer := {}
  /-- Results are looked up and stored here. -/
  cache : Option Cache := none
  /-- Part of the fingerprint that results are stored under. -/
  version : Text := standardVersion
  /-- Loaded files are kept for quoting. -/
  keepSources : Bool := false
  /-- Workers at a time; as many as there are processors when it is not positive. -/
  jobs : Int64 := 0
  processors : Nat := 1

/-- How many workers there may be at a time. -/
def ScanOptions.limit (o : ScanOptions) : Nat :=
  if o.jobs ≤ 0 then max o.processors 1 else o.jobs.toInt.toNat

/-- The fingerprint that results are stored under; empty when they are not stored at all. -/
def ScanOptions.fingerprint (o : ScanOptions) : Text :=
  if o.cache.isSome then o.reviewer.fingerprint o.version else []

/-- The key of a file's result, with the cache that has it. -/
def ScanOptions.keyed (o : ScanOptions) (f : SourceFile) : Option (Cache × Text) :=
  match o.cache with
  | some c => if o.fingerprint = [] then none else some (c, Cache.key o.fingerprint f.hash)
  | none => none

namespace Scan

structure Shared where
  files : FileSystem
  sources : FileSet := {}
  /-- News in the order in which they were sent. -/
  progress : List Progress.Event := []
  recorder : Trace.Recorder := {}
  /-- Why the context of the scan is over, if it is. -/
  context : Option Interruption := none
  group : Group := {}

inductive Stage where
  /-- See whether the group is over. -/
  | waiting
  /-- Open the span of the file. -/
  | admitted
  /-- Tell that work begins. -/
  | opened
  /-- Load the file. -/
  | begun
  /-- Keep the loaded file for quoting. -/
  | loaded (f : SourceFile)
  /-- Ask the cache. -/
  | kept (f : SourceFile)
  /-- Find the diagnostics. -/
  | missed (f : SourceFile)
  /-- Trace the diagnostics one by one. -/
  | reporting (f : SourceFile) (rest : List Diagnostic)
  /-- Store the diagnostics. -/
  | storing (f : SourceFile)
  /-- Trace the failure, if there is one. -/
  | settled
  /-- Tell the outcome. -/
  | recorded
  /-- Close the span of the file. -/
  | closing
  /-- Come back to the group. -/
  | returning (error? : Option Interruption)
  | finished
  /-- The group was over before work began. -/
  | dropped
deriving DecidableEq, Repr

namespace Stage

def isOver : Stage → Bool
  | finished | dropped => true
  | _ => false

/-- Decreases with every step. -/
def rank : Stage → Nat × Nat
  | waiting => (13, 0)
  | admitted => (12, 0)
  | opened => (11, 0)
  | begun => (10, 0)
  | loaded _ => (9, 0)
  | kept _ => (8, 0)
  | missed _ => (7, 0)
  | reporting _ rest => (6, rest.length)
  | storing _ => (5, 0)
  | settled => (4, 0)
  | recorded => (3, 0)
  | closing => (2, 0)
  | returning _ => (1, 0)
  | finished | dropped => (0, 0)

end Stage

/-- One file on its way through a scan. -/
structure Worker where
  path : Text
  stage : Stage := .waiting
  /-- Where in the trace the worker is. -/
  position : Trace.Position := .outside
  span : Trace.Span := {}
  diagnostics : List Diagnostic := []
  failure : Option ReviewError := none
  isCached : Bool := false
deriving DecidableEq, Repr

namespace Shared

def announce (s : Shared) (e : Progress.Event) : Shared := { s with progress := s.progress ++ [e] }

def fail (s : Shared) (p : Trace.Position) (name reason : Text) : Shared :=
  { s with recorder := s.recorder.fail p .file name reason }

end Shared

namespace Worker

def pointDetail (path : Text) (d : Diagnostic) : Text :=
  path ++ [58] ++ Text.decimal d.line.toNat ++ [58] ++ Text.decimal d.col.toNat ++ [32] ++ d.message

/-- Asks the cache about a loaded file. An entry that cannot be read counts as missing and is
traced. -/
def lookUp (o : ScanOptions) (s : Shared) (w : Worker) (f : SourceFile) : Shared × Worker :=
  match o.keyed f with
  | none => (s, { w with stage := .missed f })
  | some (c, key) =>
    match c.get s.files key with
    | .ok (some e) =>
      (s, { w with stage := .settled, diagnostics := e.diagnostics.getD [], isCached := true })
    | .ok none => (s, { w with stage := .missed f })
    | .error e =>
      (s.fail w.position (bytes "cache get " ++ w.path) e.message, { w with stage := .missed f })

/-- Stores the diagnostics of a loaded file. When that fails it is traced. -/
def store (o : ScanOptions) (s : Shared) (w : Worker) (f : SourceFile) : Shared × Worker :=
  let w' := { w with stage := .settled }
  match o.keyed f with
  | none => (s, w')
  | some (c, key) =>
    let stored := if w.diagnostics = [] then none else some w.diagnostics
    match c.put s.files key { path := w.path, diagnostics := stored } with
    | .ok files => ({ s with files }, w')
    | .error e => (s.fail w.position (bytes "cache put " ++ w.path) e.message, w')

def outcome (w : Worker) : Progress.Event :=
  match w.failure with
  | some e => { file := w.path, status := .error, error := some e.message }
  | none =>
    { file := w.path, status := if w.isCached then .cached else .done,
      diagnostics := Int64.ofNat w.diagnostics.length }

/-- The span of the file with its last fields, and what is said when it is closed. -/
def closed (w : Worker) : Trace.Span × Text :=
  match w.failure with
  | some _ => (w.span, bytes "failed")
  | none =>
    let span := if w.isCached then w.span.set (bytes "cached") (bytes "true") else w.span
    (span.set (bytes "diagnostics") (Text.decimal w.diagnostics.length), [])

def close (s : Shared) (w : Worker) : Shared × Worker :=
  let (recorder, span) := s.recorder.finish w.closed.1 w.closed.2
  ({ s with recorder }, { w with stage := .returning none, span })

/-- What a worker does first: it turns back when its group is over. -/
def enter (s : Shared) (w : Worker) : Worker :=
  { w with
    stage := match s.group.context with
      | some e => .returning (some e)
      | none => .admitted }

def leave (s : Shared) (w : Worker) (error? : Option Interruption) : Shared × Worker :=
  ({ s with group := s.group.hear error? },
    { w with stage := if error?.isSome then .dropped else .finished })

def step (o : ScanOptions) (s : Shared) (w : Worker) : Shared × Worker :=
  match w.stage with
  | .waiting => (s, w.enter s)
  | .admitted =>
    let (recorder, position, span) := s.recorder.start w.position .file w.path
    ({ s with recorder }, { w with stage := .opened, position, span })
  | .opened => (s.announce { file := w.path, status := .working }, { w with stage := .begun })
  | .begun =>
    match Reviewer.load s.files w.path with
    | .ok f => (s, { w with stage := .loaded f })
    | .error e => (s, { w with stage := .settled, failure := some e })
  | .loaded f =>
    (if o.keepSources then { s with sources := s.sources.add w.path f.content f.flags } else s,
      { w with stage := .kept f })
  | .kept f => lookUp o s w f
  | .missed f =>
    match o.reviewer.source w.path f with
    | some (.ok ds) => (s, { w with stage := .reporting f ds, diagnostics := ds })
    | some (.error e) => (s, { w with stage := .settled, failure := some e })
    | none => (s, w)
  | .reporting f rest =>
    match rest with
    | [] => (s, { w with stage := .storing f })
    | d :: rest =>
      ({ s with
          recorder := s.recorder.point w.position .rule d.code.id (pointDetail w.path d) },
        { w with stage := .reporting f rest })
  | .storing f => store o s w f
  | .settled =>
    (match w.failure with
      | some e => s.fail w.position w.path e.message
      | none => s,
      { w with stage := .recorded })
  | .recorded => (s.announce w.outcome, { w with stage := .closing })
  | .closing => close s w
  | .returning error? => leave s w error?
  | .finished => (s, w)
  | .dropped => (s, w)

theorem lookUp_rank (o : ScanOptions) (s : Shared) (w : Worker) (f : SourceFile) :
    (lookUp o s w f).2.stage.rank.1 < 8 := by
  unfold lookUp
  split
  · simp [Stage.rank]
  · split <;> simp [Stage.rank]

theorem store_stage (o : ScanOptions) (s : Shared) (w : Worker) (f : SourceFile) :
    (store o s w f).2.stage = .settled := by
  unfold store
  split
  · rfl
  · dsimp only
    split <;> rfl

/-- The worker reviews its file for ever. -/
def IsStuck (o : ScanOptions) (w : Worker) : Prop :=
  ∃ f, w.stage = .missed f ∧ o.reviewer.source w.path f = none

/-- A step leads on, unless nothing remains to be done or the worker is stuck. -/
theorem rank_step (o : ScanOptions) (s : Shared) (w : Worker) (h : w.stage.isOver = false)
    (hends : ¬ w.IsStuck o) :
    Prod.Lex (· < ·) (· < ·) (step o s w).2.stage.rank w.stage.rank := by
  unfold step
  cases hs : w.stage with
  | waiting =>
      unfold enter
      cases s.group.context <;> simp [Stage.rank, Prod.lex_def]
  | admitted => simp [Stage.rank, Prod.lex_def]
  | opened => simp [Stage.rank, Prod.lex_def]
  | begun => dsimp only; split <;> simp [Stage.rank, Prod.lex_def]
  | loaded f => simp [Stage.rank, Prod.lex_def]
  | kept f => exact (Prod.lex_def).2 (.inl (lookUp_rank o s w f))
  | missed f =>
      dsimp only
      split
      · simp [Stage.rank, Prod.lex_def]
      · simp [Stage.rank, Prod.lex_def]
      · rename_i hnone
        exact absurd ⟨f, hs, hnone⟩ hends
  | reporting f rest => cases rest <;> simp [Stage.rank, Prod.lex_def]
  | storing f => simp [store_stage, Stage.rank, Prod.lex_def]
  | settled => simp [Stage.rank, Prod.lex_def]
  | recorded => simp [Stage.rank, Prod.lex_def]
  | closing => simp [close, Stage.rank, Prod.lex_def]
  | returning error? => cases error? <;> simp [leave, Stage.rank, Prod.lex_def]
  | finished => simp [hs, Stage.isOver] at h
  | dropped => simp [hs, Stage.isOver] at h

/-- All the steps of a worker, without any of another worker between them. -/
def run (o : ScanOptions) (s : Shared) (w : Worker) : Shared × Worker :=
  let r := step o s w
  if _ : Prod.lexLt r.2.stage.rank w.stage.rank then run o r.1 r.2 else r
termination_by w.stage.rank
decreasing_by exact Prod.lex_def.mpr ‹_›

end Worker

end Scan

end LineReview
