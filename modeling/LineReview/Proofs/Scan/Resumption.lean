import LineReview.Proofs.Scan.Turns

/-!
# Going on after being called off

That a scan was called off shows in two places only: it queues no more paths, and a
worker that has not begun turns back. So a scan that was called off is, apart from the
paths and files it leaves out, one that goes on. `Mirrors` relates it to a scan that
nobody calls off, in which its workers do the same in the same order and those that
turned back still wait; a move of the one is a move of the other, or the other does
not notice it (`Mirrors.transition`).

From the moment the group is over, the other scan stays where it is in its own loop: a
worker that turned back has made room for the next one, while in the other scan it has
not. No worker begins from then on, so nothing is lost by that.

Hence a run that was called off can be made anew, and however that one goes on, it
lists what the other has listed, and possibly more (`Run.exists_anew`). This needs
nothing to be known about the files or the cache.
-/

namespace LineReview

namespace Scan

/-- What the workers share, as if nobody had called the scan off. -/
def Shared.undisturbed (s : Shared) : Shared := { s with context := none, group := {} }

@[simp]
theorem Shared.files_undisturbed (s : Shared) : s.undisturbed.files = s.files := rfl

theorem Group.context_hear {g : Group} (error? : Option Interruption) (h : g.context ≠ none) :
    (g.hear error?).context ≠ none := by
  cases error? with
  | none => exact h
  | some e =>
      unfold hear
      dsimp only
      split
      · exact h
      · intro hnone
        exact h (Option.or_eq_none_iff.mp hnone).1

namespace Worker

/-- Only a worker that waits sees whether the group is over, and only one that has turned back tells
the group of an error. -/
theorem step_undisturbed {o : ScanOptions} {s : Shared} {w : Worker}
    (hkept : w.hasTurnedBack = false) (h : w.stage ≠ .waiting ∨ s.group.context = none) :
    step o s.undisturbed w = ((step o s w).1.undisturbed, (step o s w).2) := by
  unfold step
  cases hstage : w.stage with
  | waiting =>
      have hrunning := h.resolve_left fun hne => hne hstage
      dsimp only
      rw [enter, enter, hrunning]
      rfl
  | begun =>
      dsimp only
      rw [s.files_undisturbed]
      cases Reviewer.load s.files w.path <;> rfl
  | loaded f =>
      dsimp only
      split <;> rfl
  | kept f =>
      dsimp only
      unfold lookUp
      cases o.keyed f with
      | none => rfl
      | some ck =>
          obtain ⟨c, key⟩ := ck
          dsimp only
          rw [s.files_undisturbed]
          cases c.get s.files key with
          | error e => rfl
          | ok found => cases found <;> rfl
  | missed f =>
      dsimp only
      cases o.reviewer.source w.path f with
      | none => rfl
      | some x => cases x <;> rfl
  | reporting f rest => cases rest <;> rfl
  | storing f =>
      dsimp only
      unfold store
      cases o.keyed f with
      | none => rfl
      | some ck =>
          obtain ⟨c, key⟩ := ck
          dsimp only
          rw [s.files_undisturbed]
          cases c.put s.files key _ <;> rfl
  | settled =>
      dsimp only
      cases w.failure <;> rfl
  | returning error? =>
      cases error? with
      | none => rfl
      | some e =>
          rw [hasTurnedBack, hstage] at hkept
          cases hkept
  | _ => rfl

/-- A worker that has turned back waits again. -/
def resumed (w : Worker) : Worker := if w.hasTurnedBack then { w with stage := .waiting } else w

theorem resumed_of_kept {w : Worker} (h : w.hasTurnedBack = false) : w.resumed = w :=
  if_neg (Bool.eq_false_iff.mp h)

/-- Turning back does not show in the resumed worker. -/
theorem resumed_step {o : ScanOptions} {s : Shared} {w : Worker}
    (h : w.hasTurnedBack = true ∨ w.stage = .waiting ∧ s.group.context ≠ none) :
    (step o s w).1.undisturbed = s.undisturbed ∧ (step o s w).2.resumed = w.resumed := by
  rcases h with hturned | ⟨hstage, hover⟩
  · cases hstage : w.stage with
    | dropped =>
        rw [step, hstage]
        exact ⟨rfl, rfl⟩
    | returning error? =>
        cases error? with
        | none =>
            rw [hasTurnedBack, hstage] at hturned
            cases hturned
        | some e =>
            rw [step, hstage]
            refine ⟨rfl, ?_⟩
            rw [resumed, resumed, if_pos hturned]
            rfl
    | _ =>
        rw [hasTurnedBack, hstage] at hturned
        cases hturned
  · obtain ⟨e, hcontext⟩ := Option.ne_none_iff_exists'.mp hover
    rw [step, hstage]
    refine ⟨rfl, ?_⟩
    dsimp only
    rw [enter, hcontext, resumed_of_kept (w := w) (by rw [hasTurnedBack, hstage])]
    cases w
    subst hstage
    rfl

end Worker

/-! ## When all workers have come back -/

section Past

variable {o : ScanOptions} {s s' : Scan} {m : Move}

/-- A scan that has gone on without its workers does not come back to them. -/
theorem Transition.isPast (h : Transition o s m s') (hpast : s.loop.isPast = true) :
    s'.loop.isPast = true := by
  cases h with
  | pull hloop _ | exhaust hloop _ | refuse hloop _ | queue hloop _ | start hloop _ =>
      rw [hloop] at hpast
      cases hpast
  | gather => rfl
  | endPass => rfl
  | «return» => rfl
  | _ => exact hpast

theorem Transition.workers_of_isPast (h : Transition o s m s') (hlinked : IsLinked s)
    (hpast : s'.loop.isPast = true) : s'.workers = s.workers := by
  cases h with
  | queue => cases hpast
  | work _ hw hbusy =>
      rw [hlinked.past hpast _ (List.mem_of_getElem? hw)] at hbusy
      cases hbusy
  | _ => rfl

end Past

/-! ## The scan that goes on -/

/-- The scan `b` is the scan `s` as if nobody had called it off, as long as its workers have not all
come back. -/
structure Mirrors (b s : Scan) : Prop where
  shared : b.shared = s.shared.undisturbed
  position : b.position = s.position
  workers : b.workers = s.workers.map Worker.resumed
  begun : ∀ (i : Nat) w, b.workers[i]? = some w → w.stage ≠ .waiting → i < b.started
  loop : s.shared.group.context = none → b.loop = s.loop ∧ b.ahead = s.ahead
  turned : ∀ w ∈ s.workers, w.hasTurnedBack = true → s.shared.group.context ≠ none

namespace Mirrors

variable {o : ScanOptions} {b s s' : Scan}

theorem start (shared : Shared) (p : Trace.Position) (paths : List Text) :
    Mirrors (Scan.start { shared with context := none } p paths) (Scan.start shared p paths) := by
  have hnone : (Scan.start shared p paths).workers = [] := rfl
  constructor
  case shared => rfl
  case position => rfl
  case workers => rfl
  case begun =>
    intro i w hw
    cases hw
  case loop => exact fun _ => ⟨rfl, rfl⟩
  case turned =>
    intro w hw
    rw [hnone] at hw
    cases hw

/-- As long as the group is not over, the workers are the same. -/
theorem workers_eq (h : Mirrors b s) (hrunning : s.shared.group.context = none) :
    b.workers = s.workers := by
  have hkept : ∀ w ∈ s.workers, w.resumed = id w := by
    intro w hw
    refine Worker.resumed_of_kept (Bool.not_eq_true _ ▸ ?_)
    exact fun hturned => h.turned w hw hturned hrunning
  rw [h.workers, List.map_congr_left hkept, List.map_id]

theorem started_eq (h : Mirrors b s) (hrunning : s.shared.group.context = none) :
    b.started = s.started := by
  rw [started, started, (h.loop hrunning).1, h.workers_eq hrunning]

/-- Steps of the loops alone leave everything else as it was. -/
theorem move_loop (h : Mirrors b s) {l : Loop} {ahead : List Text}
    (hstarted : b.started ≤ started { b with loop := l, ahead }) :
    Mirrors { b with loop := l, ahead } { s with loop := l, ahead } where
  shared := h.shared
  position := h.position
  workers := h.workers
  begun i w hw hbegun := Nat.lt_of_lt_of_le (h.begun i w hw hbegun) hstarted
  loop _ := ⟨rfl, rfl⟩
  turned := h.turned

/-- Once the group is over, the loop of the scan does not matter. -/
theorem stay (h : Mirrors b s) (hover : s.shared.group.context ≠ none) (l : Loop)
    (ahead : List Text) : Mirrors b { s with loop := l, ahead } :=
  { h with loop := fun hrunning => absurd hrunning hover }

/-- A step of the loop alone: until the group is over, the scan that goes on makes it too, and from
then on it stays where it is. -/
theorem move_or_stay (h : Mirrors b s) (l : Loop) (ahead : List Text)
    (hmove : s.shared.group.context = none → b.move o .main = { b with loop := l, ahead }) :
    Mirrors b { s with loop := l, ahead } ∨
      (∀ e, Move.main ≠ .cancel e) ∧ Mirrors (b.move o .main) { s with loop := l, ahead } := by
  by_cases hrunning : s.shared.group.context = none
  · have hstarted := (Scan.transition o b .main).started_le
    rw [hmove hrunning] at hstarted ⊢
    exact .inr ⟨Move.main_ne_cancel, h.move_loop hstarted⟩
  · exact .inl (h.stay hrunning l ahead)

/-- A path that is queued is queued there too. -/
theorem queue (h : Mirrors b s) {path : Text} (hloop : s.loop = .pulled path)
    (hrunning : s.shared.group.context = none) :
    Mirrors (b.move o .main) { s with
      loop := .starting
      shared := s.shared.announce { file := path, status := .queued }
      workers := s.workers ++ [{ path, position := s.position }] } := by
  have hgroup : b.shared.group.context = none := by rw [h.shared]; rfl
  obtain ⟨hloop', hahead'⟩ := h.loop hrunning
  change Mirrors (b.advance o) _
  rw [advance_queue (hloop'.trans hloop) hgroup]
  constructor
  case shared =>
    dsimp only
    rw [h.shared]
    rfl
  case position => exact h.position
  case workers =>
    dsimp only
    rw [h.workers, h.position, List.map_append]
    rfl
  case begun =>
    -- the new worker has not been started, and it has not begun either
    intro i w hw hbegun
    have hlt : i < b.workers.length := by
      by_contra hle
      rw [List.getElem?_append_right (Nat.not_lt.mp hle)] at hw
      rw [List.mem_singleton.mp (List.mem_of_getElem? hw)] at hbegun
      exact hbegun rfl
    rw [started, if_pos rfl, List.length_append]
    exact hlt
  case loop => exact fun _ => ⟨rfl, hahead'⟩
  case turned =>
    intro w hw hturned
    rcases List.mem_append.mp hw with hw | hw
    · exact h.turned w hw hturned
    · rw [List.mem_singleton.mp hw] at hturned
      cases hturned

/-- A worker that turns back, or has done so, is not noticed. -/
theorem work_idle (h : Mirrors b s) {i : Nat} {w : Worker} (hw : s.workers[i]? = some w)
    (hover : s.shared.group.context ≠ none)
    (hidle : w.hasTurnedBack = true ∨ w.stage = .waiting ∧ s.shared.group.context ≠ none) :
    Mirrors b { s with
      shared := (w.step o s.shared).1, workers := s.workers.set i (w.step o s.shared).2 } := by
  obtain ⟨hshared, hworker⟩ := Worker.resumed_step (o := o) (s := s.shared) hidle
  have hstill : (w.step o s.shared).1.group.context ≠ none := by
    rcases w.step_group o s.shared with hsame | ⟨error?, _, hheard⟩
    · rwa [hsame]
    · rw [hheard]
      exact Group.context_hear error? hover
  constructor
  case shared => exact h.shared.trans hshared.symm
  case position => exact h.position
  case workers => exact h.workers.trans (map_set_worker hw hworker).symm
  case begun => exact h.begun
  case loop => exact fun hrunning => absurd hrunning hstill
  case turned => exact fun _ _ _ => hstill

/-- Every other step of a worker is one of the same worker there. -/
theorem work_busy (h : Mirrors b s) {i : Nat} {w : Worker} (hstarted : i < s.started)
    (hw : s.workers[i]? = some w) (hkept : w.hasTurnedBack = false)
    (hbusy : w.stage ≠ .waiting ∨ s.shared.group.context = none) :
    Mirrors (b.move o (.work i)) { s with
      shared := (w.step o s.shared).1, workers := s.workers.set i (w.step o s.shared).2 } := by
  have hw' : b.workers[i]? = some w := by
    rw [h.workers, List.getElem?_map, hw, Option.map_some, Worker.resumed_of_kept hkept]
  have hstarted' : i < b.started := by
    rcases hbusy with hstage | hrunning
    · exact h.begun i w hw' hstage
    · rwa [h.started_eq hrunning]
  have hkept' : (w.step o s.shared).2.hasTurnedBack = false := by
    rw [← Bool.not_eq_true]
    intro hturned
    rcases Worker.hasTurnedBack_step hturned with hbefore | ⟨hstage, hover⟩
    · rw [hkept] at hbefore
      cases hbefore
    · rcases hbusy with hne | hrunning
      · exact hne hstage
      · rw [hrunning] at hover
        cases hover
  have hgroup : (w.step o s.shared).1.group = s.shared.group := by
    rcases w.step_group o s.shared with hsame | ⟨error?, hstage, hheard⟩
    · exact hsame
    · cases error? with
      | none => exact hheard
      | some e =>
          rw [Worker.hasTurnedBack, hstage] at hkept
          cases hkept
  change Mirrors (b.work o i) _
  rw [work_eq hstarted' hw', h.shared, Worker.step_undisturbed hkept hbusy]
  constructor
  case shared => rfl
  case position => exact h.position
  case workers =>
    dsimp only
    rw [h.workers, List.map_set, Worker.resumed_of_kept hkept']
  case begun =>
    intro j v hv hbegun
    have hsame : started { b with
        shared := (w.step o s.shared).1.undisturbed
        workers := b.workers.set i (w.step o s.shared).2 } = b.started := by
      unfold started
      rw [List.length_set]
    rw [hsame]
    by_cases hij : i = j
    · exact hij ▸ hstarted'
    · exact h.begun j v ((List.getElem?_set_ne hij).symm.trans hv) hbegun
  case loop => exact fun hrunning => h.loop (hgroup ▸ hrunning)
  case turned =>
    intro v hv hturned
    dsimp only
    rw [hgroup]
    rcases List.mem_or_eq_of_mem_set hv with hv | rfl
    · exact h.turned v hv hturned
    · rw [hkept'] at hturned
      cases hturned

/-- Until all workers have come back, a move of a scan is one of the scan that goes on, or that one
does not notice it. -/
theorem transition {m : Move} (h : Mirrors b s) (ht : Transition o s m s')
    (hpast : s'.loop.isPast = false) :
    Mirrors b s' ∨ (∀ e, m ≠ .cancel e) ∧ Mirrors (b.move o m) s' := by
  cases ht with
  | pull hloop hahead =>
      refine h.move_or_stay _ _ fun hrunning => ?_
      obtain ⟨hloop', hahead'⟩ := h.loop hrunning
      exact advance_pull (hloop'.trans hloop) (hahead'.trans hahead)
  | exhaust hloop hahead =>
      refine h.move_or_stay .waiting s.ahead fun hrunning => ?_
      obtain ⟨hloop', hahead'⟩ := h.loop hrunning
      rw [← hahead']
      exact advance_exhaust (hloop'.trans hloop) (hahead'.trans hahead)
  | refuse hloop hover => exact .inl (h.stay (by rw [hover]; exact Option.some_ne_none _) _ _)
  | queue hloop hrunning => exact .inr ⟨Move.main_ne_cancel, h.queue hloop hrunning⟩
  | start hloop hroom =>
      refine h.move_or_stay .pulling s.ahead fun hrunning => ?_
      obtain ⟨hloop', hahead'⟩ := h.loop hrunning
      rw [← hahead']
      refine advance_start (hloop'.trans hloop) ?_
      rwa [busy, h.workers_eq hrunning, h.started_eq hrunning]
  | @work i w hstarted hw hbusy =>
      by_cases hover : s.shared.group.context = none
      · refine .inr ⟨Move.work_ne_cancel i, h.work_busy hstarted hw ?_ (.inr hover)⟩
        rw [← Bool.not_eq_true]
        exact fun hturned => h.turned w (List.mem_of_getElem? hw) hturned hover
      · by_cases hidle : w.hasTurnedBack = true ∨ w.stage = .waiting
        · exact .inl (h.work_idle hw hover (hidle.imp_right fun hstage => ⟨hstage, hover⟩))
        · obtain ⟨hkept, hstage⟩ := not_or.mp hidle
          exact .inr ⟨Move.work_ne_cancel i,
            h.work_busy hstarted hw (Bool.not_eq_true _ ▸ hkept) (.inl hstage)⟩
  | cancel e => exact .inl { h with }
  | @spread e hcontext =>
      have hover : s.shared.group.context.or (some e) ≠ none := by
        cases s.shared.group.context <;> exact Option.some_ne_none _
      exact .inl { h with loop := fun hnone => absurd hnone hover, turned := fun _ _ _ => hover }
  | idle => exact .inl h
  | _ => cases hpast

end Mirrors

namespace Run

/-- The run from the same start that makes the given moves and was not called off before. -/
def anew (r : Run) (ms : List Move) : Run :=
  { r with shared := { r.shared with context := none }, moves := ms }

/-- Without being called off, the workers of a run can get to where they have got, apart from those
that turned back. -/
theorem exists_resumed (r : Run) :
    ∃ ms, (r.anew ms).IsUncancelled ∧
      (r.anew ms).final.workers = r.final.workers.map Worker.resumed := by
  suffices h : ∃ ms, (∀ e, Move.cancel e ∉ ms) ∧
      (r.anew ms).final.workers = r.final.workers.map Worker.resumed ∧
      (r.final.loop.isPast = false → Mirrors (r.anew ms).final r.final) by
    obtain ⟨ms, hms, hworkers, _⟩ := h
    exact ⟨ms, ⟨rfl, hms⟩, hworkers⟩
  refine r.along (P := fun _ s => ∃ ms, (∀ e, Move.cancel e ∉ ms) ∧
    (r.anew ms).final.workers = s.workers.map Worker.resumed ∧
    (s.loop.isPast = false → Mirrors (r.anew ms).final s)) ?_ ?_ r.moves List.prefix_rfl
  · exact ⟨[], fun _ => List.not_mem_nil, rfl, fun _ => Mirrors.start r.shared r.position r.paths⟩
  · rintro prior m s' hprior ht ⟨ms, hms, hworkers, hmirrors⟩
    have hbefore := (List.prefix_append prior [m]).trans hprior
    cases hpast' : s'.loop.isPast with
    | true =>
        -- nothing happens any more to the workers
        refine ⟨ms, hms, ?_, fun hrunning => Bool.noConfusion hrunning⟩
        rw [hworkers, ht.workers_of_isPast (r.isLinked prior hbefore) hpast']
    | false =>
        have hpast : (r.after prior).loop.isPast = false := by
          rw [← Bool.not_eq_true]
          intro hpast
          rw [ht.isPast hpast] at hpast'
          cases hpast'
        rcases (hmirrors hpast).transition ht hpast' with hsame | ⟨hm, hmoved⟩
        · exact ⟨ms, hms, hsame.workers, fun _ => hsame⟩
        · have hfinal : (r.anew (ms ++ [m])).final = (r.anew ms).final.move r.options m :=
            (r.anew ms).after_concat ms m
          refine ⟨ms ++ [m], ?_, ?_, ?_⟩
          · intro e hmem
            rcases List.mem_append.mp hmem with hmem | hmem
            · exact hms e hmem
            · exact hm e (List.mem_singleton.mp hmem).symm
          · rw [hfinal]
            exact hmoved.workers
          · rw [hfinal]
            exact fun _ => hmoved

end Run

/-! ## What has been found stays -/

/-- A worker that is over is not changed by any moves. -/
theorem getElem?_moves_of_isOver {o : ScanOptions} {s : Scan} {i : Nat} {w : Worker}
    (h : s.workers[i]? = some w) (hover : w.stage.isOver = true) (ms : List Move) :
    (s.moves o ms).workers[i]? = some w := by
  induction ms generalizing s with
  | nil => exact h
  | cons m ms ih => exact ih ((transition o s m).getElem?_of_isOver h hover)

/-- Nothing has been found for a file that waits, or whose worker has turned back. -/
def Worker.FoundNothing (w : Worker) : Prop :=
  w.stage = .waiting ∨ w.hasTurnedBack = true → w.answer = .ok []

theorem Worker.step_ne_waiting (o : ScanOptions) (s : Shared) (w : Worker) :
    (step o s w).2.stage ≠ .waiting := by
  intro hwaiting
  by_cases hstuck : w.IsStuck o
  · obtain ⟨f, hstage, hnone⟩ := hstuck
    rw [step, hstage] at hwaiting
    dsimp only at hwaiting
    rw [hnone, hstage] at hwaiting
    cases hwaiting
  · cases hover : w.stage.isOver with
    | true =>
        rw [step_of_isOver hover] at hwaiting
        rw [hwaiting] at hover
        cases hover
    | false =>
        -- no stage has a higher rank than waiting
        have hrank := rank_step o s w hover hstuck
        rw [hwaiting] at hrank
        cases hstage : w.stage <;> simp [hstage, Stage.rank, Prod.lex_def] at hrank

theorem Worker.foundNothing_step {o : ScanOptions} {s : Shared} {w : Worker}
    (h : w.FoundNothing) : (step o s w).2.FoundNothing := by
  rintro (hwaiting | hturned)
  · exact absurd hwaiting (step_ne_waiting o s w)
  · rcases hasTurnedBack_step hturned with hbefore | ⟨hstage, _⟩
    · have hanswer := h (.inr hbefore)
      cases hstage : w.stage with
      | returning error? =>
          rw [step, hstage]
          exact hanswer
      | dropped =>
          rw [step, hstage]
          exact hanswer
      | _ =>
          rw [hasTurnedBack, hstage] at hbefore
          cases hbefore
    · have hanswer := h (.inl hstage)
      rw [step, hstage]
      exact hanswer

theorem Run.foundNothing (r : Run) : ∀ w ∈ r.final.workers, w.FoundNothing :=
  r.along_workers (fun _ _ _ _ _ => rfl) (fun _ _ _ _ h => Worker.foundNothing_step h) r.moves
    List.prefix_rfl

/-! ## The same run once more -/

/-- Elements that have no image or stand at the same place in a longer list have the same images
there. -/
theorem filterMap_sublist_of_getElem? {α β : Type} {f : α → Option β} {as bs : List α}
    (h : ∀ (i : Nat) a, as[i]? = some a → f a = none ∨ bs[i]? = some a) :
    (as.filterMap f).Sublist (bs.filterMap f) := by
  induction as generalizing bs with
  | nil => exact List.nil_sublist _
  | cons a as ih =>
      have htail : (as.filterMap f).Sublist (bs.tail.filterMap f) := by
        refine ih ?_
        intro i b hb
        rw [List.getElem?_tail]
        exact h (i + 1) b hb
      rcases h 0 a rfl with hnone | hhead
      · rw [List.filterMap_cons_none hnone]
        exact htail.trans ((List.tail_sublist bs).filterMap f)
      · cases bs with
        | nil => cases hhead
        | cons b bs =>
            obtain rfl : b = a := Option.some.inj hhead
            cases hb : f b with
            | none =>
                rw [List.filterMap_cons_none hb, List.filterMap_cons_none hb]
                exact htail
            | some c =>
                rw [List.filterMap_cons_some hb, List.filterMap_cons_some hb]
                exact htail.cons_cons c

end Scan

/-- Everything that is listed is listed there too, in the same order. -/
structure ScanResult.IsPartOf (a b : ScanResult) : Prop where
  files : a.files.Sublist b.files
  failures : a.failures.Sublist b.failures

namespace Scan

/-- A result is part of another when every worker has found nothing or stands there too. -/
theorem isPartOf_result {s s' : Scan}
    (h : ∀ (i : Nat) w, s.workers[i]? = some w → w.answer = .ok [] ∨ s'.workers[i]? = some w) :
    s.result.IsPartOf s'.result := by
  constructor
  · refine filterMap_sublist_of_getElem? ?_
    intro i w hw
    exact (h i w hw).imp_left fun hnothing => (Worker.entries_of_nothing hnothing).1
  · refine filterMap_sublist_of_getElem? ?_
    intro i w hw
    exact (h i w hw).imp_left fun hnothing => (Worker.entries_of_nothing hnothing).2

namespace Run

/-- A run that is over can be made anew without being called off, and however it goes on, it lists
the same and possibly more. -/
theorem exists_anew {r : Run} (hover : r.IsOver) :
    ∃ ms, (r.anew ms).IsUncancelled ∧
      ∀ more, r.result.IsPartOf ((r.anew ms).extend more).result := by
  obtain ⟨ms, huncancelled, hworkers⟩ := r.exists_resumed
  refine ⟨ms, huncancelled, ?_⟩
  intro more
  refine isPartOf_result ?_
  intro i w hw
  have hmem := List.mem_of_getElem? hw
  cases hturned : w.hasTurnedBack with
  | true => exact .inl (r.foundNothing w hmem (.inr hturned))
  | false =>
      have hresumed : (r.anew ms).final.workers[i]? = some w := by
        rw [hworkers, List.getElem?_map, hw, Option.map_some, Worker.resumed_of_kept hturned]
      -- the worker is over before the new run goes on, so it is the same at the end
      refine .inr ?_
      rw [final_extend]
      exact getElem?_moves_of_isOver hresumed (isOver_final hover w hmem) more

end Run

end Scan

end LineReview
