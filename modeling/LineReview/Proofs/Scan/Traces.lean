import LineReview.Proofs.Scan.News
import LineReview.Proofs.Trace.Kept
import Mathlib.Data.List.Nodup

/-!
# The trace of a scan

Under a tracer that keeps everything, the review of a file shows in the trace as a
span with one point for every diagnostic in it, or with the failure. What a worker
has traced at each stage is `Worker.traced`, and a step adds exactly what is missing
there (`step_traced`). However the workers alternate, the trace is therefore made of
the spans of all files below the one span of the pass (`Run.isTraced`).

At the end the trace can be counted, and gives the numbers of the result
(`trace_agrees`).
-/

namespace LineReview.Scan

open Trace (Event Recorder)

namespace Worker

/-! ## What a worker traces -/

/-- The span of a file below a pass, as it was opened. -/
def fileSpan (pass : Nat) (w : Worker) : Trace.Span :=
  { id := w.position.span, parent := pass, scope := .file, name := w.path }

def opening (pass : Nat) (w : Worker) : Event :=
  { kind := .start, scope := .file, span := w.position.span, parent := pass, name := w.path }

def finding (p : Trace.Position) (path : Text) (d : Diagnostic) : Event :=
  Recorder.instant p .rule d.code.id (pointDetail path d)

def complaint (p : Trace.Position) (path : Text) (e : ReviewError) : Event :=
  Recorder.failing p .file path e.message

def ending (pass : Nat) (w : Worker) : Event :=
  let closed := closed { w with span := w.fileSpan pass }
  Recorder.ending closed.1 closed.2

/-- What a worker has traced so far. -/
def traced (pass : Nat) (w : Worker) : List Event :=
  let findings (ds : List Diagnostic) := ds.map (finding w.position w.path)
  let complaints := w.failure.toList.map (complaint w.position w.path)
  match w.stage with
  | .waiting | .admitted | .returning (some _) | .dropped => []
  | .opened | .begun | .loaded _ | .kept _ | .missed _ => [w.opening pass]
  | .reporting _ rest =>
    w.opening pass :: findings (w.diagnostics.take (w.diagnostics.length - rest.length))
  | .storing _ | .settled => w.opening pass :: findings w.diagnostics
  | .recorded | .closing => w.opening pass :: (findings w.diagnostics ++ complaints)
  | .returning none | .finished =>
    w.opening pass :: (findings w.diagnostics ++ complaints ++ [w.ending pass])

/-- A worker is below the pass until it opens the span of its file, and then below that. -/
def Placed (pass : Nat) (w : Worker) : Prop :=
  w.position.isTraced = true ∧
    match w.stage with
    | .waiting | .admitted | .returning (some _) | .dropped => w.position.span = pass
    | .returning none | .finished => True
    | .reporting _ rest =>
      w.span = w.fileSpan pass ∧ w.position.span ≠ 0 ∧ rest <:+ w.diagnostics
    | _ => w.span = w.fileSpan pass ∧ w.position.span ≠ 0

/-- Only the fields of a span change when it is closed. -/
theorem closed_eq (w : Worker) : ∃ fields, w.closed.1 = { w.span with fields } := by
  have hset : ∀ (s : Trace.Span) key value, ∃ fields, s.set key value = { s with fields } := by
    intro s key value
    rw [Trace.Span.set]
    split
    · exact ⟨_, rfl⟩
    · exact ⟨s.fields, rfl⟩
  unfold closed
  split
  · exact ⟨w.span.fields, rfl⟩
  · dsimp only
    split
    · obtain ⟨fields, heq⟩ := hset w.span (bytes "cached") (bytes "true")
      obtain ⟨fields', heq'⟩ :=
        hset { w.span with fields } (bytes "diagnostics") (Text.decimal w.diagnostics.length)
      exact ⟨fields', by rw [heq, heq']⟩
    · exact hset _ _ _

theorem ending_eq (pass : Nat) (w : Worker) :
    ∃ fields detail, w.ending pass = Recorder.ending { w.fileSpan pass with fields } detail := by
  obtain ⟨fields, heq⟩ := closed_eq { w with span := w.fileSpan pass }
  exact ⟨fields, _, by rw [ending, heq]⟩

/-! ## What a step of it traces -/

/-- Between two moments a worker traces what it has traced at the second one and had not at the
first. -/
def Traces (pass : Nat) (s s' : Shared) (w w' : Worker) : Prop :=
  ∃ es, s.recorder.Records es s'.recorder ∧ w'.traced pass = w.traced pass ++ es ∧ w'.Placed pass

section Step

variable {o : ScanOptions} {s s' : Shared} {w w' : Worker} {pass : Nat}

theorem traces_nothing (hs : s'.recorder = s.recorder) (hw : w'.traced pass = w.traced pass)
    (hplaced : w'.Placed pass) : Traces pass s s' w w' := by
  refine ⟨[], ?_, by rw [hw, List.append_nil], hplaced⟩
  rw [hs]
  exact .refl _

theorem traces_admitted (hallows : (s.recorder.levelAt w.position).allows .file = true)
    (hplaced : w.Placed pass) (hs : w.stage = .admitted) :
    Traces pass s (step o s w).1 w (step o s w).2 := by
  obtain ⟨htraced, hstage⟩ := hplaced
  rw [hs] at hstage
  rw [step, hs]
  refine ⟨_, Recorder.records_start hallows, ?_, ?_⟩
  · simp [Recorder.start_of_allows hallows, traced, hs, opening, Recorder.beginning, hstage]
  · simp [Recorder.start_of_allows hallows, Placed, fileSpan, htraced, hstage]

/-- One more of the diagnostics is in the trace then. -/
theorem traces_reporting (hallows : (s.recorder.levelAt w.position).allows .rule = true)
    (hplaced : w.Placed pass) {f : SourceFile} {d : Diagnostic} {rest : List Diagnostic}
    (hs : w.stage = .reporting f (d :: rest)) : Traces pass s (step o s w).1 w (step o s w).2 := by
  obtain ⟨htraced, hstage⟩ := hplaced
  rw [hs] at hstage
  obtain ⟨hspan, hid, hrest⟩ := hstage
  rw [step, hs]
  refine ⟨[finding w.position w.path d], ?_, ?_, htraced, hspan, hid,
    (List.suffix_cons d rest).trans hrest⟩
  · change s.recorder.Records _ (s.recorder.point w.position .rule _ _)
    rw [Recorder.point_of_allows hallows]
    exact Recorder.records_emit (show Trace.Kind.point ≠ .start by decide)
  · obtain ⟨before, hbefore⟩ := hrest
    have hlength : before.length + (rest.length + 1) - rest.length = before.length + 1 := by
      omega
    have htake : (before ++ d :: rest).take (before.length + 1) = before ++ [d] := by
      rw [List.take_length_add_append]
      rfl
    simp [traced, hs, opening, ← hbefore, hlength, htake, -List.map_take]

theorem traces_settled (hon : (s.recorder.levelAt w.position).isOn = true)
    (hplaced : w.Placed pass) (hs : w.stage = .settled) :
    Traces pass s (step o s w).1 w (step o s w).2 := by
  obtain ⟨htraced, hstage⟩ := hplaced
  rw [hs] at hstage
  rw [step, hs]
  cases w.failure with
  | none => exact traces_nothing rfl (by simp [traced, hs, opening]) ⟨htraced, hstage⟩
  | some e =>
      refine ⟨[complaint w.position w.path e], ?_, ?_, htraced, hstage⟩
      · dsimp only [Shared.fail]
        rw [Recorder.fail_of_isOn hon]
        exact Recorder.records_emit (show Trace.Kind.point ≠ .start by decide)
      · simp [traced, hs, opening]

theorem traces_closing (hplaced : w.Placed pass) (hs : w.stage = .closing) :
    Traces pass s (step o s w).1 w (step o s w).2 := by
  obtain ⟨htraced, hstage⟩ := hplaced
  rw [hs] at hstage
  obtain ⟨hspan, hid⟩ := hstage
  have hself : { w with span := w.fileSpan pass } = w := by rw [← hspan]
  have hopen : w.closed.1.isOpen = true := by
    obtain ⟨fields, heq⟩ := w.closed_eq
    rw [heq, hspan]
    simpa [Trace.Span.isOpen, fileSpan] using hid
  rw [step, hs]
  refine ⟨[w.ending pass], ?_, ?_, htraced, trivial⟩
  · dsimp only [close]
    rw [Recorder.finish_of_open hopen, ending, hself]
    exact Recorder.records_emit (show Trace.Kind.finish ≠ .start by decide)
  · simp only [close, traced, hs, opening, List.cons_append]
    rfl

/-- Without a cache, a step traces what the worker has traced after it and had not traced before. -/
theorem step_traced (hcache : o.cache = none) (hlevel : s.recorder.tracer.level = .debug)
    (hcoherent : w.Coherent) (hplaced : w.Placed pass) :
    Traces pass s (step o s w).1 w (step o s w).2 := by
  have htraced := hplaced.1
  have hstage := hplaced.2
  have hallows : ∀ scope, Trace.Level.debug.allows scope = true →
      (s.recorder.levelAt w.position).allows scope = true := by
    intro scope hscope
    rw [Recorder.allows_levelAt, hlevel]
    exact ⟨htraced, hscope⟩
  cases hs : w.stage with
  | admitted => exact traces_admitted (hallows .file (by decide)) hplaced hs
  | settled =>
      exact traces_settled (Trace.Level.isOn_of_allows (hallows .file (by decide))) hplaced hs
  | closing => exact traces_closing hplaced hs
  | waiting =>
      rw [hs] at hstage
      rw [step, hs]
      refine traces_nothing rfl ?_ ⟨htraced, ?_⟩
      · unfold enter
        cases s.group.context <;> simp [traced, hs]
      · unfold enter
        cases s.group.context <;> exact hstage
  | opened | recorded =>
      rw [hs] at hstage
      rw [step, hs]
      exact traces_nothing rfl (by simp [traced, hs, opening]) ⟨htraced, hstage⟩
  | begun =>
      rw [hs] at hstage
      rw [Coherent, hs] at hcoherent
      rw [step, hs]
      dsimp only
      split
      · exact traces_nothing rfl (by simp [traced, hs, opening]) ⟨htraced, hstage⟩
      · exact traces_nothing rfl (by simp [traced, hs, opening, hcoherent.2.1]) ⟨htraced, hstage⟩
  | loaded f =>
      rw [hs] at hstage
      rw [step, hs]
      refine traces_nothing ?_ (by simp [traced, hs, opening]) ⟨htraced, hstage⟩
      dsimp only
      split <;> rfl
  | kept f =>
      rw [hs] at hstage
      rw [step, hs]
      simp only [lookUp, ScanOptions.keyed_eq_none hcache]
      exact traces_nothing rfl (by simp [traced, hs, opening]) ⟨htraced, hstage⟩
  | missed f =>
      rw [hs] at hstage
      rw [Coherent, hs] at hcoherent
      rw [step, hs]
      dsimp only
      split
      · refine traces_nothing rfl ?_ ⟨htraced, hstage.1, hstage.2, List.suffix_refl _⟩
        simp [traced, hs, opening]
      · exact traces_nothing rfl (by simp [traced, hs, opening, hcoherent.2.1]) ⟨htraced, hstage⟩
      · exact traces_nothing rfl rfl ⟨htraced, by rw [hs]; exact hstage⟩
  | reporting f rest =>
      cases rest with
      | nil =>
          rw [hs] at hstage
          rw [step, hs]
          refine traces_nothing rfl ?_ ⟨htraced, hstage.1, hstage.2.1⟩
          simp [traced, hs, opening]
      | cons d rest => exact traces_reporting (hallows .rule (by decide)) hplaced hs
  | storing f =>
      rw [hs] at hstage
      rw [step, hs]
      simp only [store, ScanOptions.keyed_eq_none hcache]
      exact traces_nothing rfl (by simp [traced, hs, opening]) ⟨htraced, hstage⟩
  | returning error? =>
      rw [hs] at hstage
      rw [step, hs]
      cases error? with
      | none =>
          refine traces_nothing rfl ?_ ⟨htraced, trivial⟩
          simp only [leave, traced, hs]
          rfl
      | some e => exact traces_nothing rfl (by simp [leave, traced, hs]) ⟨htraced, hstage⟩
  | finished | dropped =>
      rw [step, hs]
      exact traces_nothing rfl rfl hplaced

end Step

end Worker

/-! ## What a scan traces -/

namespace Run

/-- The identifier of the pass. -/
def passId (r : Run) : Nat := r.shared.recorder.lastSpan + 1

/-- The span of the pass, as it was opened. -/
def passSpan (r : Run) : Trace.Span :=
  { id := r.passId, parent := r.position.span, scope := .pass, name := bytes "review" }

def passOpening (r : Run) : Event :=
  r.shared.recorder.beginning r.position .pass (bytes "review")

/-- The fields of the pass when it ends. -/
def passFields (result : ScanResult) : List (Text × Text) :=
  [(bytes "files", Text.decimal result.scanned), (bytes "cached", Text.decimal result.cached),
    (bytes "diagnostics", Text.decimal result.count),
    (bytes "failures", Text.decimal result.failures.length)]

def passEnding (r : Run) (result : ScanResult) : Event :=
  Recorder.ending { r.passSpan with fields := passFields result } []

/-- The end of the pass, as soon as it is in the trace. -/
def passEndings (r : Run) (s : Scan) : List Event :=
  match s.loop with
  | .ended _ | .returned _ => [r.passEnding s.result]
  | _ => []

/-- The trace is made of the span of the pass and of what the workers have traced, and the workers
are below the pass. -/
structure IsTraced (r : Run) (s : Scan) : Prop where
  position : s.position = ⟨true, r.passId⟩
  span : r.passEndings s = [] → s.span = r.passSpan
  placed : ∀ w ∈ s.workers, w.Placed r.passId
  recorded : ∃ es, r.shared.recorder.Records es s.shared.recorder ∧
    es.Perm (r.passOpening :: s.workers.flatMap (Worker.traced r.passId) ++ r.passEndings s)

variable {r : Run} {s : Scan}

theorem passEndings_of_isPast (h : s.loop.isPast = false) : r.passEndings s = [] := by
  unfold passEndings
  cases hloop : s.loop with
  | ended =>
      rw [hloop] at h
      cases h
  | returned =>
      rw [hloop] at h
      cases h
  | _ => rfl

/-- Nothing depends on where the loop stands, as long as the pass does not end. -/
theorem IsTraced.move_loop (h : r.IsTraced s) {l : Loop} {ahead : List Text} {group : Group}
    (hsame : r.passEndings { s with loop := l, ahead, shared := { s.shared with group } } =
      r.passEndings s) :
    r.IsTraced { s with loop := l, ahead, shared := { s.shared with group } } where
  position := h.position
  span hnone := h.span (hsame ▸ hnone)
  placed := h.placed
  recorded := by
    rw [hsame]
    exact h.recorded

theorem IsTraced.endPass (h : r.IsTraced s) {error? : Option Interruption}
    (hloop : s.loop = .gathered error?) :
    r.IsTraced { s with
      loop := .ended error?
      shared := { s.shared with recorder := s.endPass.shared.recorder }
      span := s.endPass.span } := by
  have hnone : r.passEndings s = [] := by rw [passEndings, hloop]
  obtain ⟨es, hrecords, hperm⟩ := h.recorded
  rw [hnone, List.append_nil] at hperm
  refine ⟨h.position, nofun, h.placed, es ++ [r.passEnding s.result], hrecords.trans ?_,
    hperm.append_right _⟩
  -- The four keys differ, so the fields stand in the order in which they are set.
  have hfields : { r.passSpan with fields := passFields s.result } =
      (((s.span.set (bytes "files") (Text.decimal s.result.scanned)).set
        (bytes "cached") (Text.decimal s.result.cached)).set (bytes "diagnostics")
        (Text.decimal s.result.count)).set (bytes "failures")
        (Text.decimal s.result.failures.length) := by
    rw [h.span hnone]
    rfl
  have hopen : Trace.Span.isOpen { r.passSpan with fields := passFields s.result } = true := by
    simp [Trace.Span.isOpen, passSpan, passId]
  change s.shared.recorder.Records _ (s.shared.recorder.finish _ _).1
  rw [← hfields, Recorder.finish_of_open hopen]
  exact Recorder.records_emit (show Trace.Kind.finish ≠ .start by decide)

theorem IsTraced.queue (h : r.IsTraced s) {path : Text} (hloop : s.loop = .pulled path) :
    r.IsTraced { s with
      loop := .starting
      shared := s.shared.announce { file := path, status := .queued }
      workers := s.workers ++ [{ path, position := s.position }] } := by
  have hnone : r.passEndings s = [] := by rw [passEndings, hloop]
  obtain ⟨es, hrecords, hperm⟩ := h.recorded
  refine ⟨h.position, fun _ => h.span hnone, ?_, es, hrecords, ?_⟩
  · intro w hw
    rcases List.mem_append.mp hw with hw | hw
    · exact h.placed w hw
    · rw [List.mem_singleton.mp hw]
      exact ⟨by rw [h.position], by rw [h.position]⟩
  · rw [hnone] at hperm
    rw [List.flatMap_append]
    simpa [Worker.traced, passEndings] using hperm

theorem IsTraced.work {i : Nat} {w : Worker} (h : r.IsTraced s) (hcache : r.options.cache = none)
    (hlevel : r.shared.recorder.tracer.level = .debug) (hcoherent : w.Coherent)
    (hpast : s.loop.isPast = false) (hw : s.workers[i]? = some w) :
    r.IsTraced { s with
      shared := (w.step r.options s.shared).1
      workers := s.workers.set i (w.step r.options s.shared).2 } := by
  have hnone : r.passEndings s = [] := passEndings_of_isPast hpast
  obtain ⟨es, hrecords, hperm⟩ := h.recorded
  obtain ⟨more, hmore, htraced, hplaced⟩ := Worker.step_traced hcache
    (hrecords.level.trans hlevel) hcoherent (h.placed w (List.mem_of_getElem? hw))
  refine ⟨h.position, fun _ => h.span hnone, ?_, es ++ more, hrecords.trans hmore, ?_⟩
  · intro v hv
    rcases List.mem_or_eq_of_mem_set hv with hv | rfl
    · exact h.placed v hv
    · exact hplaced
  · have hworkers := flatMap_set_worker hw htraced
    rw [passEndings_of_isPast (s := { s with
      shared := _, workers := s.workers.set i (w.step r.options s.shared).2 }) hpast,
      List.append_nil]
    rw [hnone, List.append_nil] at hperm
    exact (hperm.append_right more).trans (hworkers.symm.cons r.passOpening)

theorem isTraced (hcache : r.options.cache = none) (hposition : r.position.isTraced = true)
    (hlevel : r.shared.recorder.tracer.level = .debug) :
    ∀ ms, ms <+: r.moves → r.IsTraced (r.after ms) := by
  refine r.along (P := fun _ s => r.IsTraced s) ?_ ?_
  · have hpass : (r.shared.recorder.levelAt r.position).allows .pass = true := by
      rw [Recorder.allows_levelAt, hlevel]
      exact ⟨hposition, by decide⟩
    change r.IsTraced (start r.shared r.position r.paths)
    rw [start, Recorder.start_of_allows hpass]
    refine ⟨by rw [← hposition]; rfl, fun _ => rfl, List.forall_mem_nil _, [r.passOpening], ?_, .refl _⟩
    have hrecords : r.shared.recorder.Records [r.passOpening] _ := Recorder.records_start hpass
    rw [Recorder.start_of_allows hpass] at hrecords
    exact hrecords
  · intro ms m s' hms ht hs
    have hbefore := (List.prefix_append ms [m]).trans hms
    cases ht with
    | pull hloop _ | exhaust hloop _ | refuse hloop _ | start hloop _ | gather hloop _ =>
        exact hs.move_loop (by rw [passEndings, passEndings, hloop])
    | queue hloop _ => exact hs.queue hloop
    | endPass hloop => exact hs.endPass hloop
    | «return» hloop => exact hs.move_loop (by rw [passEndings, passEndings, hloop]; rfl)
    | work _ hw hbusy =>
        have hmem := List.mem_of_getElem? hw
        refine hs.work hcache hlevel (r.coherent ms hbefore _ hmem) ?_ hw
        rw [← Bool.not_eq_true]
        intro hpast
        rw [(r.isLinked ms hbefore).past hpast _ hmem] at hbusy
        cases hbusy
    | cancel | spread => exact ⟨hs.position, hs.span, hs.placed, hs.recorded⟩
    | idle => exact hs

/-- When the scan has returned, its pass has ended in the trace. -/
theorem recorded_final (h : r.IsTraced r.final) (hover : r.IsOver) :
    ∃ es, r.shared.recorder.Records es r.final.shared.recorder ∧
      es.Perm (r.passOpening :: r.final.workers.flatMap (Worker.traced r.passId) ++
        [r.passEnding r.result]) := by
  have hended : r.passEndings r.final = [r.passEnding r.result] := by
    unfold IsOver at hover
    unfold passEndings
    cases hloop : r.final.loop with
    | returned => rfl
    | _ =>
        rw [hloop] at hover
        cases hover
  rw [← hended]
  exact h.recorded

end Run

/-! ## Counting a trace -/

/-- An event of a kind and a scope. -/
def marks (k : Trace.Kind) (s : Trace.Scope) (e : Event) : Bool := e.kind = k && e.scope = s

/-- The file whose span has an identifier. -/
def fileOf? (es : List Event) (id : Nat) : Option Text :=
  (es.find? fun e => marks .start .file e && e.span = id).map (·.name)

/-- A trace shows one pass with the numbers of a result, a span in it for every path, the
diagnostics of the result, each in a span of its file, and the failures of the result. -/
structure Shows (result : ScanResult) (paths : List Text) (es : List Event) : Prop where
  pass : ∃ id, (es.filter (marks .start .pass)).map (·.span) = [id] ∧
    (es.filter (marks .finish .pass)).map (fun e => (e.span, e.fields)) =
      [(id, Run.passFields result)] ∧
    (∀ parent ∈ (es.filter (marks .start .file)).map (·.parent), parent = id) ∧
    ∀ parent ∈ (es.filter (marks .finish .file)).map (·.parent), parent = id
  opened : ((es.filter (marks .start .file)).map (·.name)).Perm paths
  closed : ((es.filter (marks .finish .file)).map fun e => (e.span, e.name)).Perm
    ((es.filter (marks .start .file)).map fun e => (e.span, e.name))
  distinct : ((es.filter (·.kind = .start)).map (·.span)).Nodup
  count : (es.filter (marks .point .rule)).length = result.count
  points : ((es.filter (marks .point .rule)).map fun e =>
      (fileOf? es e.parent, e.name, e.detail)).Perm
    (result.files.flatMap fun f =>
      f.diagnostics.map fun d => (some f.path, d.code.id, Worker.pointDetail f.path d))
  failures : ((es.filter (·.failure)).map fun e => (e.name, e.detail)).Perm
    (result.failures.map fun f => (f.path, f.reason.message))

/-- The clock readings of a trace do not show in its counts. -/
theorem Shows.stamp {r : Recorder} (hclocks : r.StampsClocks) {result : ScanResult}
    {paths : List Text} {es : List Event} (h : Shows result paths es) :
    Shows result paths (es.map r.stamp) := by
  have hmarks : ∀ k s e, marks k s (r.stamp e) = marks k s e := by
    intro k s e
    obtain ⟨time, elapsed, heq⟩ := hclocks e
    rw [heq]
    rfl
  have hsame : ∀ e, (r.stamp e).kind = e.kind ∧ (r.stamp e).span = e.span ∧
      (r.stamp e).parent = e.parent ∧ (r.stamp e).name = e.name ∧ (r.stamp e).detail = e.detail ∧
      (r.stamp e).fields = e.fields ∧ (r.stamp e).failure = e.failure := by
    intro e
    obtain ⟨time, elapsed, heq⟩ := hclocks e
    rw [heq]
    exact ⟨rfl, rfl, rfl, rfl, rfl, rfl, rfl⟩
  have hfile : ∀ id, fileOf? (es.map r.stamp) id = fileOf? es id := by
    intro id
    simp only [fileOf?, List.find?_map, Option.map_map, Function.comp_def, hmarks, hsame]
  constructor <;>
    simp only [List.filter_map, List.map_map, List.length_map, Function.comp_def, hmarks, hsame,
      hfile]
  · exact h.pass
  · exact h.opened
  · exact h.closed
  · exact h.distinct
  · exact h.count
  · exact h.points
  · exact h.failures

/-! ## The end of a scan -/

section Finished

variable {pass : Nat} {w : Worker}

theorem Worker.traced_of_finished (h : w.stage = .finished) :
    w.traced pass = w.opening pass :: (w.diagnostics.map (finding w.position w.path) ++
      w.failure.toList.map (complaint w.position w.path) ++ [w.ending pass]) := by
  rw [traced, h]

/-- What a finished worker has traced, by kind and scope. -/
theorem Worker.filter_traced (pass : Nat) (h : w.stage = .finished) :
    (w.traced pass).filter (marks .start .pass) = [] ∧
    (w.traced pass).filter (marks .finish .pass) = [] ∧
    (w.traced pass).filter (marks .start .file) = [w.opening pass] ∧
    (w.traced pass).filter (marks .finish .file) = [w.ending pass] ∧
    (w.traced pass).filter (marks .point .rule) = w.diagnostics.map (finding w.position w.path) ∧
    (w.traced pass).filter (·.failure) = w.failure.toList.map (complaint w.position w.path) := by
  obtain ⟨fields, detail, heq⟩ := w.ending_eq pass
  rw [traced_of_finished h, heq]
  refine ⟨?_, ?_, ?_, ?_, ?_, ?_⟩ <;>
    simp +decide [marks, opening, finding, complaint, fileSpan, Recorder.instant, Recorder.failing,
      Recorder.ending, List.filter_map, Function.comp_def]

theorem Worker.keeps_traced (h : w.stage = .finished) {e : Event} (he : e ∈ w.traced pass) :
    Trace.Level.debug.keeps e = true := by
  obtain ⟨fields, detail, heq⟩ := w.ending_eq pass
  rw [traced_of_finished h, heq] at he
  simp only [List.mem_cons, List.mem_append, List.mem_map, List.not_mem_nil, or_false] at he
  rcases he with rfl | (⟨d, _, rfl⟩ | ⟨e, _, rfl⟩) | rfl
  · rfl
  · exact (Recorder.keeps_instant _).trans rfl
  · exact (Recorder.keeps_failing _).trans rfl
  · exact (Recorder.keeps_ending _).trans rfl

end Finished

/-- A trace by kind and scope. -/
theorem Run.filter_trace {r : Run} {es : List Event}
    (hfinished : ∀ w ∈ r.final.workers, w.stage = .finished)
    (hperm : es.Perm
      (r.passOpening :: r.final.workers.flatMap (Worker.traced r.passId) ++
        [r.passEnding r.result])) :
    es.filter (marks .start .pass) = [r.passOpening] ∧
    es.filter (marks .finish .pass) = [r.passEnding r.result] ∧
    (es.filter (marks .start .file)).Perm (r.final.workers.map (Worker.opening r.passId)) ∧
    (es.filter (marks .finish .file)).Perm (r.final.workers.map (Worker.ending r.passId)) ∧
    (es.filter (marks .point .rule)).Perm (r.final.workers.flatMap fun w =>
      w.diagnostics.map (Worker.finding w.position w.path)) ∧
    (es.filter (·.failure)).Perm (r.final.workers.flatMap fun w =>
      w.failure.toList.map (Worker.complaint w.position w.path)) := by
  -- the pass around what the workers have traced
  have hparts : ∀ (p : Event → Bool) (g : Worker → List Event),
      (∀ w ∈ r.final.workers, (w.traced r.passId).filter p = g w) →
      (es.filter p).Perm
        ([r.passOpening].filter p ++ r.final.workers.flatMap g ++
          [r.passEnding r.result].filter p) := by
    intro p g hg
    rw [← List.flatMap_congr hg, ← List.filter_flatMap, ← List.filter_append, ← List.filter_append]
    exact hperm.filter p
  have hfilter := fun w hw => Worker.filter_traced r.passId (hfinished w hw)
  have hnone : (r.final.workers.flatMap fun _ => ([] : List Event)) = [] := by simp
  refine ⟨?_, ?_, ?_, ?_, ?_, ?_⟩
  · have h := hparts _ (fun _ => []) fun w hw => (hfilter w hw).1
    rw [hnone] at h
    exact List.perm_singleton.mp h
  · have h := hparts _ (fun _ => []) fun w hw => (hfilter w hw).2.1
    rw [hnone] at h
    exact List.perm_singleton.mp h
  · have h := hparts _ _ fun w hw => (hfilter w hw).2.2.1
    rw [List.map_eq_flatMap]
    exact h.trans (.of_eq (List.append_nil _))
  · have h := hparts _ _ fun w hw => (hfilter w hw).2.2.2.1
    rw [List.map_eq_flatMap]
    exact h.trans (.of_eq (List.append_nil _))
  · have h := hparts _ _ fun w hw => (hfilter w hw).2.2.2.2.1
    exact h.trans (.of_eq (List.append_nil _))
  · have h := hparts _ _ fun w hw => (hfilter w hw).2.2.2.2.2
    exact h.trans (.of_eq (List.append_nil _))

/-- Of every file the span that has its identifier is its own. -/
theorem fileOf?_of_nodup {es : List Event} {e : Event}
    (hdistinct : ((es.filter (·.kind = .start)).map (·.span)).Nodup) (he : e ∈ es)
    (hmarks : marks .start .file e = true) : fileOf? es e.span = some e.name := by
  have hstart : ∀ {a : Event}, marks .start .file a = true → a ∈ es →
      a ∈ es.filter (·.kind = .start) := by
    intro a ha hmem
    rw [marks, Bool.and_eq_true] at ha
    exact List.mem_filter.mpr ⟨hmem, ha.1⟩
  rw [fileOf?]
  cases hfind : es.find? fun a => marks .start .file a && a.span = e.span with
  | none =>
      have hnot := List.find?_eq_none.mp hfind e he
      simp [hmarks] at hnot
  | some a =>
      have ha := List.find?_some hfind
      rw [Bool.and_eq_true, decide_eq_true_eq] at ha
      have heq := List.inj_on_of_nodup_map hdistinct
        (hstart ha.1 (List.mem_of_find?_eq_some hfind)) (hstart hmarks he) ha.2
      rw [heq]
      rfl

/-- Without failures among the reviewed files, the files of a result have the diagnostics of all
workers. -/
theorem flatMap_files {α : Type} (f : Text → Diagnostic → α) {s : Scan}
    (h : ∀ w ∈ s.workers, w.failure = none ∨ w.diagnostics = []) :
    (s.result.files.flatMap fun x => x.diagnostics.map (f x.path)) =
      s.workers.flatMap fun w => w.diagnostics.map (f w.path) := by
  simp only [Scan.result]
  generalize s.workers = ws at h
  induction ws with
  | nil => rfl
  | cons w ws ih =>
      have ih := ih fun v hv => h v (List.mem_cons_of_mem w hv)
      rw [List.flatMap_cons, ← ih, List.filterMap_cons]
      rcases h w List.mem_cons_self with hfailure | hdiagnostics
      · cases hdiagnostics : w.diagnostics <;> simp [hfailure]
      · simp [hdiagnostics]

theorem map_failures {α : Type} (f : Text → ReviewError → α) (s : Scan) :
    (s.result.failures.map fun x => f x.path x.reason) =
      s.workers.flatMap fun w => w.failure.toList.map (f w.path) := by
  simp only [Scan.result]
  induction s.workers with
  | nil => rfl
  | cons w ws ih =>
      rw [List.flatMap_cons, ← ih, List.filterMap_cons]
      cases w.failure <;> rfl

theorem Run.shows {r : Run} (huncancelled : r.IsUncancelled) (hover : r.IsOver) {es : List Event}
    (hperm : es.Perm
      (r.passOpening :: r.final.workers.flatMap (Worker.traced r.passId) ++
        [r.passEnding r.result]))
    (hdistinct : ((es.filter (·.kind = .start)).map (·.span)).Nodup) :
    Shows r.result r.paths es := by
  have hfinished := finished_final huncancelled hover
  have hcoherent : ∀ w ∈ r.final.workers, w.failure = none ∨ w.diagnostics = [] := by
    intro w hw
    have h := r.coherent r.moves List.prefix_rfl w hw
    rw [Worker.Coherent, hfinished w hw] at h
    exact h.imp_right And.left
  obtain ⟨hpass, hend, hopened, hclosed, hpoints, hfailures⟩ := filter_trace hfinished hperm
  have hending : ∀ w : Worker, (w.ending r.passId).parent = r.passId ∧
      (w.ending r.passId).span = w.position.span ∧ (w.ending r.passId).name = w.path := by
    intro w
    obtain ⟨fields, detail, heq⟩ := w.ending_eq r.passId
    rw [heq]
    exact ⟨rfl, rfl, rfl⟩
  have hfile : ∀ w ∈ r.final.workers, fileOf? es w.position.span = some w.path := by
    intro w hw
    have hmem := List.mem_filter.mp (hopened.mem_iff.mpr (List.mem_map_of_mem hw))
    exact fileOf?_of_nodup hdistinct hmem.1 hmem.2
  have hlisted : ((es.filter (marks .point .rule)).map fun e =>
      (fileOf? es e.parent, e.name, e.detail)).Perm (r.result.files.flatMap fun f =>
        f.diagnostics.map fun d => (some f.path, d.code.id, Worker.pointDetail f.path d)) := by
    refine (hpoints.map _).trans (.of_eq ?_)
    have hfiles := flatMap_files
      (fun path d => (some path, d.code.id, Worker.pointDetail path d)) hcoherent
    rw [List.map_flatMap]
    refine (List.flatMap_congr ?_).trans hfiles.symm
    intro w hw
    rw [List.map_map, ← hfile w hw]
    rfl
  constructor
  case pass =>
    refine ⟨r.passId, by rw [hpass]; rfl, by rw [hend]; rfl, ?_, ?_⟩
    · intro parent hparent
      obtain ⟨e, he, rfl⟩ := List.mem_map.mp hparent
      obtain ⟨w, _, rfl⟩ := List.mem_map.mp (hopened.mem_iff.mp he)
      rfl
    · intro parent hparent
      obtain ⟨e, he, rfl⟩ := List.mem_map.mp hparent
      obtain ⟨w, _, rfl⟩ := List.mem_map.mp (hclosed.mem_iff.mp he)
      exact (hending w).1
  case opened =>
    refine (hopened.map _).trans (.of_eq ?_)
    rw [← paths_final huncancelled hover, List.map_map]
    rfl
  case closed =>
    refine ((hclosed.map _).trans (.of_eq ?_)).trans (hopened.map _).symm
    rw [List.map_map, List.map_map]
    refine List.map_congr_left ?_
    intro w _
    exact Prod.ext (hending w).2.1 (hending w).2.2
  case distinct => exact hdistinct
  case count =>
    have hlength := hlisted.length_eq
    rw [List.length_map] at hlength
    rw [hlength, ScanResult.count]
    simp [List.length_flatMap]
  case points => exact hlisted
  case failures =>
    refine (hfailures.map _).trans (.of_eq ?_)
    rw [List.map_flatMap]
    refine Eq.trans ?_ (map_failures (fun path e => (path, e.message)) r.final).symm
    refine List.flatMap_congr ?_
    intro w _
    rw [List.map_map]
    rfl

/-- However the workers alternate, a scan without a cache that comes to its end adds events to the
trace that are all kept, and that show its paths and its result. -/
theorem trace_agrees {r : Run} (huncancelled : r.IsUncancelled) (hover : r.IsOver)
    (hcache : r.options.cache = none) (htraced : r.position.isTraced = true)
    (hlevel : r.shared.recorder.tracer.level = .debug)
    (hclocks : r.shared.recorder.StampsClocks) :
    ∃ es, r.final.shared.recorder.tracer = r.shared.recorder.tracer.emitAll es ∧
      (∀ e ∈ es, Trace.Level.debug.keeps e = true) ∧ Shows r.result r.paths es := by
  have hfinished := Run.finished_final huncancelled hover
  obtain ⟨es, hrecords, hperm⟩ :=
    Run.recorded_final (Run.isTraced hcache htraced hlevel r.moves List.prefix_rfl) hover
  have hshows := (Run.shows huncancelled hover hperm hrecords.nodup).stamp hclocks
  refine ⟨_, hrecords.tracer, ?_, hshows⟩
  intro e he
  obtain ⟨e, hmem, rfl⟩ := List.mem_map.mp he
  rw [Trace.Level.keeps_congr _ (hclocks.content e)]
  have hcases := hperm.mem_iff.mp hmem
  simp only [List.cons_append, List.mem_cons, List.mem_append, List.mem_flatMap,
    List.not_mem_nil, or_false] at hcases
  rcases hcases with rfl | ⟨w, hw, he⟩ | rfl
  · exact (Recorder.keeps_beginning _).trans rfl
  · exact Worker.keeps_traced (hfinished w hw) he
  · exact (Recorder.keeps_ending _).trans rfl

/-- The two alternating workers under a tracer. -/
def tracedPair : Run :=
  { alternatingPair with
    position := .top
    shared := { files := sampleFiles
                recorder := { tracer := .ring (.make .debug .text 0 true) } } }

theorem trace_agrees_pair :
    tracedPair.IsUncancelled ∧ tracedPair.IsOver ∧
    tracedPair.final.shared.recorder.tracer.events.length = 8 ∧
    ∃ es, tracedPair.final.shared.recorder.tracer =
        tracedPair.shared.recorder.tracer.emitAll es ∧
      (es.filter (marks .point .rule)).length = 1 ∧ (es.filter (·.failure)).length = 1 := by
  have huncancelled : tracedPair.IsUncancelled := ⟨rfl, fun e => by cases e <;> decide⟩
  have hover : tracedPair.IsOver := by
    unfold Run.IsOver
    decide +kernel
  have hresult : tracedPair.result.count = 1 ∧ tracedPair.result.failures.length = 1 := by
    decide +kernel
  obtain ⟨es, htracer, _, hshows⟩ := trace_agrees huncancelled hover rfl rfl rfl
    fun e => ⟨e.time, e.elapsed, rfl⟩
  refine ⟨huncancelled, hover, by decide +kernel, es, htracer, ?_, ?_⟩
  · rw [hshows.count, hresult.1]
  · have hlength := hshows.failures.length_eq
    rw [List.length_map, List.length_map, hresult.2] at hlength
    exact hlength

end LineReview.Scan
