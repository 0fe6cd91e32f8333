import LineReview.Proofs.Scan.Transitions
import Mathlib.Data.List.Induction

/-!
# Runs of a scan

A run is what a scan is given and the list of its moves. The moves may let the scan
and its workers step in any order, and its context may be over at any point, so a
statement about every run is one about every way the scan can go.

`along` is the induction over the moves of a run. Three things hold all along it. The
group is over, and workers turn back, only when the context of the scan is over
(`IsLinked`); so as long as it is not, the workers have the paths that were taken
(`Takes`), and a scan that returns without an error has finished all of them
(`Explains`). `agrees_transition` is the fourth: every worker agrees with a review of
its file alone. A run that is over and was not called off therefore has the result
that its paths and files determine (`result_of_agrees`).
-/

namespace LineReview

namespace Scan

namespace Loop

/-- The path that was taken and not queued yet. -/
def inHand : Loop → List Text
  | pulled path => [path]
  | _ => []

/-- No more paths are taken. -/
def hasStopped : Loop → Bool
  | waiting | gathered _ | ended _ | returned _ => true
  | _ => false

/-- All workers have come back. -/
def isPast : Loop → Bool
  | gathered _ | ended _ | returned _ => true
  | _ => false

def isReturned : Loop → Bool
  | returned _ => true
  | _ => false

/-- The error of the group, as long as the scan has it in hand. -/
def groupError? : Loop → Option Interruption
  | gathered error? | ended error? => error?
  | _ => none

theorem groupError?_of_isPast {l : Loop} (h : l.isPast = false) : l.groupError? = none := by
  cases l <;> first | rfl | cases h

end Loop

/-- One run of a scan: what it is given and the moves it makes. -/
structure Run where
  options : ScanOptions
  shared : Shared
  position : Trace.Position := .outside
  /-- The paths that it can take. -/
  paths : List Text
  moves : List Move

namespace Run

/-- The scan after some moves. -/
def after (r : Run) (ms : List Move) : Scan :=
  (start r.shared r.position r.paths).moves r.options ms

def final (r : Run) : Scan := r.after r.moves

def result (r : Run) : ScanResult := r.final.result

/-- The run was not called off, neither before nor while it was going on. -/
structure IsUncancelled (r : Run) : Prop where
  before : r.shared.context = none
  during : ∀ e, Move.cancel e ∉ r.moves

/-- The scan has returned. -/
def IsOver (r : Run) : Prop := r.final.loop.isReturned = true

/-- The files that are reviewed are the same all along. -/
def IsSteady (r : Run) : Prop :=
  ∀ ms, ms <+: r.moves → ∀ p ∈ r.paths,
    Reviewer.load (r.after ms).shared.files p = Reviewer.load r.shared.files p

/-- A path of the run leads to a file. -/
def Loads (r : Run) (path : Text) (f : SourceFile) : Prop :=
  path ∈ r.paths ∧ Reviewer.load r.shared.files path = .ok f

/-- All files are so short that their lines can be numbered. -/
def IsShort (r : Run) : Prop := ∀ path f, r.Loads path f → f.content.length < 2 ^ 32 - 1

theorem after_concat (r : Run) (ms : List Move) (m : Move) :
    r.after (ms ++ [m]) = (r.after ms).move r.options m := by
  rw [after, after, Scan.moves, Scan.moves, List.foldl_append]
  rfl

/-- At the start there are no workers. -/
theorem forall_workers_nil (r : Run) (P : Worker → Prop) : ∀ w ∈ (r.after []).workers, P w :=
  List.forall_mem_nil P

theorem loop_nil (r : Run) : (r.after []).loop = .pulling := rfl

/-- What holds at the start and is kept by every move of a run holds all along. -/
theorem along (r : Run) {P : List Move → Scan → Prop} (hstart : P [] (r.after []))
    (hmove : ∀ ms m s', ms ++ [m] <+: r.moves → Transition r.options (r.after ms) m s' →
      P ms (r.after ms) → P (ms ++ [m]) s') :
    ∀ ms, ms <+: r.moves → P ms (r.after ms) := by
  intro ms
  induction ms using List.reverseRecOn with
  | nil => exact fun _ => hstart
  | append_singleton ms m ih =>
      intro hms
      rw [after_concat]
      exact hmove ms m _ hms (transition _ _ m) (ih ((List.prefix_append ms [m]).trans hms))

/-- What new workers have and steps of workers keep, all workers have all along. -/
theorem along_workers (r : Run) {P : Worker → Prop}
    (hnew : ∀ ms path, ms <+: r.moves → (r.after ms).loop = .pulled path →
      P { path, position := (r.after ms).position })
    (hstep : ∀ ms, ms <+: r.moves → ∀ w ∈ (r.after ms).workers, P w →
      P (w.step r.options (r.after ms).shared).2) :
    ∀ ms, ms <+: r.moves → ∀ w ∈ (r.after ms).workers, P w := by
  refine r.along (P := fun _ s => ∀ w ∈ s.workers, P w) (r.forall_workers_nil P) ?_
  intro ms m s' hms ht hs w hw
  have hbefore := (List.prefix_append ms [m]).trans hms
  rcases ht.mem_workers hw with hw | ⟨path, hloop, rfl⟩ | ⟨v, hv, rfl⟩
  · exact hs w hw
  · exact hnew ms path hbefore hloop
  · exact hstep ms hbefore v hv (hs v hv)

end Run

/-! ## Contexts -/

/-- How the contexts of a scan and of its group hang together. Before all workers have come back the
group is over only when the scan is called off; nobody turns back and no error is heard of for
another reason. -/
structure IsLinked (s : Scan) : Prop where
  group : s.shared.group.context ≠ none → s.shared.context ≠ none ∨ s.loop.isPast = true
  error : s.shared.group.error? ≠ none → s.shared.context ≠ none
  turned : ∀ w ∈ s.workers, w.hasTurnedBack = true → s.shared.context ≠ none
  past : s.loop.isPast = true → ∀ w ∈ s.workers, w.stage.isOver = true
  waited : s.loop.groupError? ≠ none → s.shared.context ≠ none

namespace IsLinked

variable {o : ScanOptions} {s s' : Scan} {m : Move}

theorem context_of_group (h : IsLinked s) (hpast : s.loop.isPast = false)
    (hgroup : s.shared.group.context ≠ none) : s.shared.context ≠ none := by
  rcases h.group hgroup with hcontext | hpast'
  · exact hcontext
  · rw [hpast] at hpast'
    cases hpast'

/-- Before all workers have come back, nothing depends on where the loop stands. -/
theorem move_loop (h : IsLinked s) (hpast : s.loop.isPast = false) {l : Loop} {ahead : List Text}
    (hl : l.isPast = false) : IsLinked { s with loop := l, ahead } where
  group hgroup := .inl (h.context_of_group hpast hgroup)
  error := h.error
  turned := h.turned
  past hpast' := by
    rw [hl] at hpast'
    cases hpast'
  waited hwaited := absurd (Loop.groupError?_of_isPast hl) hwaited

theorem transition_work (h : IsLinked s) {i : Nat} {w : Worker} (hw : s.workers[i]? = some w)
    (hbusy : w.stage.isOver = false) :
    IsLinked { s with
      shared := (w.step o s.shared).1, workers := s.workers.set i (w.step o s.shared).2 } := by
  have hmem := List.mem_of_getElem? hw
  have hpast : s.loop.isPast = false := by
    by_contra hpast
    have hover := h.past (Bool.not_eq_false _ ▸ hpast) w hmem
    rw [hbusy] at hover
    cases hover
  have hcontext : (w.step o s.shared).1.context = s.shared.context := w.step_context o s.shared
  -- the group is as before, or it hears of a worker that has turned back
  have hgroup : (w.step o s.shared).1.group = s.shared.group ∨ s.shared.context ≠ none := by
    rcases w.step_group o s.shared with hsame | ⟨error?, hstage, hheard⟩
    · exact .inl hsame
    · cases error? with
      | none => exact .inl hheard
      | some e => exact .inr (h.turned w hmem (by rw [Worker.hasTurnedBack, hstage]))
  refine ⟨?_, ?_, ?_, ?_, ?_⟩
  · intro hover
    rw [hcontext]
    rcases hgroup with hsame | hcalled
    · rw [hsame] at hover
      exact .inl (h.context_of_group hpast hover)
    · exact .inl hcalled
  · intro herror
    rw [hcontext]
    rcases hgroup with hsame | hcalled
    · rw [hsame] at herror
      exact h.error herror
    · exact hcalled
  · intro v hv hturned
    rw [hcontext]
    rcases List.mem_or_eq_of_mem_set hv with hv | rfl
    · exact h.turned v hv hturned
    · rcases Worker.hasTurnedBack_step hturned with hbefore | ⟨_, hover⟩
      · exact h.turned w hmem hbefore
      · exact h.context_of_group hpast (Option.isSome_iff_ne_none.mp hover)
  · intro hpast'
    rw [hpast] at hpast'
    cases hpast'
  · intro hwaited
    exact absurd (Loop.groupError?_of_isPast hpast) hwaited

theorem transition (h : IsLinked s) (ht : Transition o s m s') : IsLinked s' := by
  have hstopped : ∀ e : Interruption, s.shared.context.or (some e) ≠ none := by
    intro e
    cases s.shared.context <;> nofun
  cases ht with
  | pull hloop _ | exhaust hloop _ | refuse hloop _ | start hloop _ =>
      exact h.move_loop (by rw [hloop]; rfl) rfl
  | @queue path hloop _ =>
      have hmoved : IsLinked { s with loop := .starting } := h.move_loop (by rw [hloop]; rfl) rfl
      refine ⟨hmoved.group, h.error, ?_, nofun, nofun⟩
      intro w hw hturned
      rcases List.mem_append.mp hw with hw | hw
      · exact h.turned w hw hturned
      · rw [List.mem_singleton.mp hw] at hturned
        cases hturned
  | gather _ hover => exact ⟨fun _ => .inr rfl, h.error, h.turned, fun _ => hover, h.error⟩
  | endPass hloop =>
      have hpast : s.loop.isPast = true := by rw [hloop]; rfl
      exact ⟨fun _ => .inr rfl, h.error, h.turned, fun _ => h.past hpast,
        fun hwaited => h.waited (by rw [hloop]; exact hwaited)⟩
  | «return» hloop =>
      have hpast : s.loop.isPast = true := by rw [hloop]; rfl
      exact ⟨fun _ => .inr rfl, h.error, h.turned, fun _ => h.past hpast, nofun⟩
  | work _ hw hbusy => exact h.transition_work hw hbusy
  | cancel e =>
      exact ⟨fun _ => .inl (hstopped e), fun _ => hstopped e, fun _ _ _ => hstopped e, h.past,
        fun _ => hstopped e⟩
  | spread hcontext =>
      have hcalled : s.shared.context ≠ none := by rw [hcontext]; nofun
      exact ⟨fun _ => .inl hcalled, fun _ => hcalled, h.turned, h.past, h.waited⟩
  | idle => exact h

end IsLinked

namespace Run

theorem isLinked (r : Run) : ∀ ms, ms <+: r.moves → IsLinked (r.after ms) := by
  refine r.along (P := fun _ s => IsLinked s) ?_ fun _ _ _ _ ht hs => hs.transition ht
  refine ⟨fun hgroup => .inl hgroup, fun herror => absurd rfl herror, r.forall_workers_nil _, ?_, ?_⟩
  · intro hpast
    rw [loop_nil] at hpast
    cases hpast
  · intro hwaited
    rw [loop_nil] at hwaited
    exact absurd rfl hwaited

/-! ## Paths -/

/-- The workers have the first paths, in order. The other ones have not been taken yet, or no more
are taken; and unless the scan was called off, that is because there are no others. -/
structure Takes (r : Run) (s : Scan) : Prop where
  pulling : s.loop.hasStopped = false →
    s.workers.map (·.path) ++ s.loop.inHand ++ s.ahead = r.paths
  stopped : s.loop.hasStopped = true → s.workers.map (·.path) <+: r.paths ∧
    (s.shared.context = none → s.workers.map (·.path) = r.paths)

theorem Takes.isPrefix {r : Run} {s : Scan} (h : r.Takes s) :
    s.workers.map (·.path) <+: r.paths := by
  cases hstopped : s.loop.hasStopped with
  | false =>
      rw [← h.pulling hstopped, List.append_assoc]
      exact List.prefix_append _ _
  | true => exact (h.stopped hstopped).1

theorem Takes.transition {r : Run} {s s' : Scan} {m : Move} (h : r.Takes s) (hlinked : IsLinked s)
    (ht : Transition r.options s m s') : r.Takes s' := by
  cases ht with
  | pull hloop hahead =>
      have hpaths := h.pulling (by rw [hloop]; rfl)
      rw [hloop, hahead] at hpaths
      exact ⟨fun _ => by simpa [Loop.inHand] using hpaths, nofun⟩
  | exhaust hloop hahead =>
      have hpaths := h.pulling (by rw [hloop]; rfl)
      rw [hloop, hahead] at hpaths
      have hall : s.workers.map (·.path) = r.paths := by simpa [Loop.inHand] using hpaths
      exact ⟨nofun, fun _ => ⟨hall ▸ List.prefix_rfl, fun _ => hall⟩⟩
  | refuse hloop hover =>
      have hcalled := hlinked.context_of_group (by rw [hloop]; rfl) (by rw [hover]; nofun)
      exact ⟨nofun, fun _ => ⟨h.isPrefix, fun hnone => absurd hnone hcalled⟩⟩
  | queue hloop _ =>
      have hpaths := h.pulling (by rw [hloop]; rfl)
      rw [hloop] at hpaths
      exact ⟨fun _ => by simpa [Loop.inHand] using hpaths, nofun⟩
  | start hloop _ =>
      have hpaths := h.pulling (by rw [hloop]; rfl)
      rw [hloop] at hpaths
      exact ⟨fun _ => hpaths, nofun⟩
  | gather hloop _ => exact ⟨nofun, fun _ => h.stopped (by rw [hloop]; rfl)⟩
  | endPass hloop => exact ⟨nofun, fun _ => h.stopped (by rw [hloop]; rfl)⟩
  | «return» hloop => exact ⟨nofun, fun _ => h.stopped (by rw [hloop]; rfl)⟩
  | @work i w _ hw _ =>
      have hsame := paths_set_step (o := r.options) hw
      refine ⟨fun hloop => ?_, fun hloop => ?_⟩
      · rw [hsame]
        exact h.pulling hloop
      · rw [hsame, Worker.step_context]
        exact h.stopped hloop
  | cancel e =>
      refine ⟨h.pulling, fun hloop => ⟨(h.stopped hloop).1, fun hnone => ?_⟩⟩
      cases hcontext : s.shared.context with
      | none => exact (h.stopped hloop).2 hcontext
      | some e' =>
          change s.shared.context.or (some e) = none at hnone
          rw [hcontext] at hnone
          cases hnone
  | spread => exact ⟨h.pulling, h.stopped⟩
  | idle => exact h

theorem takes (r : Run) : ∀ ms, ms <+: r.moves → r.Takes (r.after ms) := by
  refine r.along (P := fun _ s => r.Takes s) ⟨fun _ => rfl, nofun⟩ ?_
  intro ms m s' hms ht hs
  exact hs.transition (r.isLinked ms ((List.prefix_append ms [m]).trans hms)) ht

/-- The workers have the first of the paths. -/
theorem isPrefix_paths (r : Run) : r.final.workers.map (·.path) <+: r.paths :=
  (r.takes r.moves List.prefix_rfl).isPrefix

/-- A path that has been taken is one of the run. -/
theorem mem_paths_of_pulled {r : Run} {ms : List Move} (hms : ms <+: r.moves) {path : Text}
    (hloop : (r.after ms).loop = .pulled path) : path ∈ r.paths := by
  have hpaths := (r.takes ms hms).pulling (by rw [hloop]; rfl)
  rw [hloop] at hpaths
  rw [← hpaths]
  simp [Loop.inHand]

/-! ## Errors -/

/-- The error that a scan has returned tells how far it has come. Without one it has taken all paths
and its workers have finished; otherwise it is the reason why its context is over. -/
structure Explains (r : Run) (s : Scan) : Prop where
  complete : s.loop = .returned none →
    s.workers.map (·.path) = r.paths ∧ ∀ w ∈ s.workers, w.stage = .finished
  called : ∀ e, s.loop = .returned (some e) → s.shared.context = some e

theorem finished_of_isOver {w : Worker} (hover : w.stage.isOver = true)
    (hturned : w.hasTurnedBack = false) : w.stage = .finished := by
  cases hstage : w.stage with
  | finished => rfl
  | dropped =>
      rw [Worker.hasTurnedBack, hstage] at hturned
      cases hturned
  | _ =>
      rw [hstage] at hover
      cases hover

theorem Explains.transition {r : Run} {s s' : Scan} {m : Move} (h : r.Explains s)
    (hlinked : IsLinked s) (htakes : r.Takes s) (ht : Transition r.options s m s') :
    r.Explains s' := by
  cases ht with
  | @«return» error? hloop =>
      have hpast : s.loop.isPast = true := by rw [hloop]; rfl
      have hstopped : s.loop.hasStopped = true := by rw [hloop]; rfl
      -- an error of the group is there only when the context is over, and then that comes first
      have hwaited : s.shared.context = none → error? = none := by
        intro hnone
        by_contra herror
        exact hlinked.waited (by rw [hloop]; exact herror) hnone
      cases hcontext : s.shared.context with
      | none =>
          rw [hwaited hcontext]
          refine ⟨fun _ => ⟨(htakes.stopped hstopped).2 hcontext, ?_⟩, nofun⟩
          intro w hw
          refine finished_of_isOver (hlinked.past hpast w hw) ?_
          by_contra hturned
          exact hlinked.turned w hw (Bool.not_eq_false _ ▸ hturned) hcontext
      | some e =>
          refine ⟨nofun, ?_⟩
          intro e' he'
          cases he'
          exact hcontext
  | @work i w _ hw hbusy =>
      have hbusy' : s.loop.isReturned = false := by
        by_contra hreturned
        have hpast : s.loop.isPast = true := by
          cases hloop : s.loop <;> simp [hloop, Loop.isReturned] at hreturned
          rfl
        have hover := hlinked.past hpast w (List.mem_of_getElem? hw)
        rw [hbusy] at hover
        cases hover
      refine ⟨?_, ?_⟩
      · intro hloop
        rw [show s.loop = .returned none from hloop] at hbusy'
        cases hbusy'
      · intro e hloop
        rw [show s.loop = .returned (some e) from hloop] at hbusy'
        cases hbusy'
  | cancel e =>
      refine ⟨h.complete, ?_⟩
      intro e' hloop
      change s.shared.context.or (some e) = some e'
      rw [h.called e' hloop]
      rfl
  | spread => exact ⟨h.complete, h.called⟩
  | idle => exact h
  | _ => exact ⟨nofun, nofun⟩

theorem explains (r : Run) : r.Explains r.final := by
  refine r.along (P := fun _ s => r.Explains s) ⟨nofun, nofun⟩ ?_ r.moves List.prefix_rfl
  intro ms m s' hms ht hs
  have hbefore := (List.prefix_append ms [m]).trans hms
  exact hs.transition (r.isLinked ms hbefore) (r.takes ms hbefore) ht

/-! ## Runs that are not called off -/

theorem mem_of_concat {r : Run} {ms : List Move} {m : Move} (h : ms ++ [m] <+: r.moves) :
    m ∈ r.moves :=
  h.subset (List.mem_append_right ms List.mem_cons_self)

theorem running {r : Run} (h : r.IsUncancelled) :
    ∀ ms, ms <+: r.moves → (r.after ms).shared.context = none := by
  refine r.along (P := fun _ s => s.shared.context = none) h.before ?_
  intro ms m s' hms ht hs
  cases ht with
  | cancel e => exact absurd (mem_of_concat hms) (h.during e)
  | work => exact (Worker.step_context ..).trans hs
  | _ => exact hs

/-- A scan that was not called off returns without an error. -/
theorem returned_none {r : Run} (h : r.IsUncancelled) (hover : r.IsOver) :
    r.final.loop = .returned none := by
  unfold IsOver at hover
  cases hloop : r.final.loop with
  | returned error? =>
      cases error? with
      | none => rfl
      | some e =>
          have hcontext := r.explains.called e hloop
          rw [final, running h r.moves List.prefix_rfl] at hcontext
          cases hcontext
  | _ =>
      rw [hloop] at hover
      cases hover

/-- At the end of a run that was not called off every worker has finished. -/
theorem finished_final {r : Run} (h : r.IsUncancelled) (hover : r.IsOver) :
    ∀ w ∈ r.final.workers, w.stage = .finished :=
  (r.explains.complete (returned_none h hover)).2

theorem paths_final {r : Run} (h : r.IsUncancelled) (hover : r.IsOver) :
    r.final.workers.map (·.path) = r.paths :=
  (r.explains.complete (returned_none h hover)).1

theorem isPast_final {r : Run} (hover : r.IsOver) : r.final.loop.isPast = true := by
  unfold IsOver at hover
  cases hloop : r.final.loop with
  | returned => rfl
  | _ =>
      rw [hloop] at hover
      cases hover

theorem isOver_final {r : Run} (hover : r.IsOver) :
    ∀ w ∈ r.final.workers, w.stage.isOver = true :=
  (r.isLinked r.moves List.prefix_rfl).past (isPast_final hover)

/-! ## Agreement with reviews of single files -/

/-- Every worker has a path of the run and agrees with a review of its file alone. -/
def Agrees (r : Run) (s : Scan) : Prop :=
  ∀ w ∈ s.workers, w.path ∈ r.paths ∧ w.Agrees r.options.reviewer r.shared.files

/-- Where the cache answers for a file of the run, it answers what a review finds. -/
def AnswersRight (r : Run) (fs : FileSystem) : Prop :=
  ∀ p ∈ r.paths, ∀ f c key e, Reviewer.load r.shared.files p = .ok f →
    r.options.keyed f = some (c, key) → c.get fs key = .ok (some e) →
    r.options.reviewer.source p f = some (.ok (e.diagnostics.getD []))

theorem agrees_transition {r : Run} {ms : List Move} {m : Move} {s' : Scan} (hsteady : r.IsSteady)
    (hms : ms ++ [m] <+: r.moves) (hright : r.AnswersRight (r.after ms).shared.files)
    (ht : Transition r.options (r.after ms) m s') (h : r.Agrees (r.after ms)) : r.Agrees s' := by
  have hbefore := (List.prefix_append ms [m]).trans hms
  intro w hw
  rcases ht.mem_workers hw with hw | ⟨path, hloop, rfl⟩ | ⟨v, hv, rfl⟩
  · exact h w hw
  · exact ⟨mem_paths_of_pulled hbefore hloop, rfl⟩
  · obtain ⟨hpath, hagrees⟩ := h v hv
    rw [Worker.step_path]
    refine ⟨hpath, ?_⟩
    exact Worker.agrees_step hagrees (hsteady ms hbefore v.path hpath) (hright v.path hpath)

/-! ## Runs without a cache -/

theorem files_bare {r : Run} (hcache : r.options.cache = none) :
    ∀ ms, ms <+: r.moves → (r.after ms).shared.files = r.shared.files := by
  refine r.along (P := fun _ s => s.shared.files = r.shared.files) rfl ?_
  intro ms m s' hms ht hs
  rcases ht.files with hsame | ⟨_, _, f, c, key, _, hkeyed, _⟩
  · rw [hsame, hs]
  · rw [ScanOptions.keyed_eq_none hcache] at hkeyed
    cases hkeyed

theorem isSteady_bare {r : Run} (hcache : r.options.cache = none) : r.IsSteady := by
  intro ms hms p _
  rw [files_bare hcache ms hms]

theorem agrees_bare {r : Run} (hcache : r.options.cache = none) : r.Agrees r.final := by
  refine r.along (P := fun _ s => r.Agrees s) (r.forall_workers_nil _) ?_ r.moves List.prefix_rfl
  intro ms m s' hms ht hs
  refine agrees_transition (isSteady_bare hcache) hms ?_ ht hs
  intro p _ f c key e _ hkeyed
  rw [ScanOptions.keyed_eq_none hcache] at hkeyed
  cases hkeyed

end Run

end Scan

/-! ## The result of a run -/

namespace Reviewer

/-- The place of a file among the files with diagnostics, if it belongs there. -/
def listed? (r : Reviewer) (fs : FileSystem) (path : Text) : Option FileResult :=
  match r.file fs path with
  | some (.ok ds) => if ds.isEmpty then none else some ⟨path, ds⟩
  | _ => none

/-- The place of a file among the failures, if it belongs there. -/
def failure? (r : Reviewer) (fs : FileSystem) (path : Text) : Option Failure :=
  match r.file fs path with
  | some (.error e) => some ⟨path, e⟩
  | _ => none

end Reviewer

namespace Scan

/-- A worker whose answer is that of a review has the places of its file in the result. -/
theorem Worker.entries_of_answer {w : Worker} {r : Reviewer} {fs : FileSystem}
    (h : r.file fs w.path = some w.answer) :
    (if w.failure.isNone && !w.diagnostics.isEmpty then some ⟨w.path, w.diagnostics⟩ else none) =
        r.listed? fs w.path ∧
      (w.failure.map fun e => ⟨w.path, e⟩) = r.failure? fs w.path := by
  unfold Worker.answer at h
  rw [Reviewer.listed?, Reviewer.failure?, h]
  cases w.failure with
  | none => cases w.diagnostics <;> exact ⟨rfl, rfl⟩
  | some e => exact ⟨rfl, rfl⟩

/-- A worker that has found nothing has no place in the result. -/
theorem Worker.entries_of_nothing {w : Worker} (h : w.answer = .ok []) :
    (if w.failure.isNone && !w.diagnostics.isEmpty then some (FileResult.mk w.path w.diagnostics)
        else none) = none ∧
      (w.failure.map fun e => Failure.mk w.path e) = none := by
  obtain ⟨hfailure, hdiagnostics⟩ := answer_eq_ok_iff.mp h
  rw [hfailure, hdiagnostics]
  exact ⟨rfl, rfl⟩

namespace Run

/-- At the end of a run that was not called off, every worker has the answer of a review. -/
theorem file_eq_answer {r : Run} (huncancelled : r.IsUncancelled) (hover : r.IsOver)
    (hagrees : r.Agrees r.final) :
    ∀ w ∈ r.final.workers, r.options.reviewer.file r.shared.files w.path = some w.answer := by
  intro w hw
  have hfinished := finished_final huncancelled hover w hw
  refine (hagrees w hw).2.file_eq (isOver_final hover w hw) ?_
  rw [hfinished]
  nofun

/-- A run that is over and was not called off lists what its paths and files determine. -/
theorem result_of_agrees {r : Run} (huncancelled : r.IsUncancelled) (hover : r.IsOver)
    (hagrees : r.Agrees r.final) :
    r.result.files = r.paths.filterMap (r.options.reviewer.listed? r.shared.files) ∧
    r.result.failures = r.paths.filterMap (r.options.reviewer.failure? r.shared.files) ∧
    r.result.scanned = r.paths.length := by
  have hanswer := file_eq_answer huncancelled hover hagrees
  -- the workers stand in the order of the paths, so both sides go through the same list
  rw [← paths_final huncancelled hover, List.filterMap_map, List.filterMap_map, List.length_map]
  refine ⟨?_, ?_, rfl⟩
  · refine List.filterMap_congr ?_
    intro w hw
    exact (Worker.entries_of_answer (hanswer w hw)).1
  · refine List.filterMap_congr ?_
    intro w hw
    exact (Worker.entries_of_answer (hanswer w hw)).2

end Run

end Scan

end LineReview
