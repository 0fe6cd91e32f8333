import LineReview.Scan.Basic
import LineReview.Proofs.Scan.Workers

/-!
# What one move does

A move of a scan does one of a few things, or nothing (`transition`). `Transition`
lists them with what must hold for each, so what is kept by every one of them is kept
by every move. Here this is done for single workers and for the files; along a run it
is done in `Run.along`.
-/

namespace LineReview

namespace Scan

/-- What a move can do, and when. -/
inductive Transition (o : ScanOptions) (s : Scan) : Move → Scan → Prop where
  /-- A path is taken. -/
  | pull {path : Text} {ahead : List Text} (hloop : s.loop = .pulling)
      (hahead : s.ahead = path :: ahead) :
      Transition o s .main { s with loop := .pulled path, ahead }
  /-- There are no more paths. -/
  | exhaust (hloop : s.loop = .pulling) (hahead : s.ahead = []) :
      Transition o s .main { s with loop := .waiting }
  /-- The group is over, and the path is not queued. -/
  | refuse {path : Text} {e : Interruption} (hloop : s.loop = .pulled path)
      (hover : s.shared.group.context = some e) :
      Transition o s .main { s with loop := .waiting }
  | queue {path : Text} (hloop : s.loop = .pulled path)
      (hrunning : s.shared.group.context = none) :
      Transition o s .main { s with
        loop := .starting
        shared := s.shared.announce { file := path, status := .queued }
        workers := s.workers ++ [{ path, position := s.position }] }
  /-- The last worker is started. -/
  | start (hloop : s.loop = .starting) (hroom : s.busy < o.limit) :
      Transition o s .main { s with loop := .pulling }
  /-- All workers have come back. -/
  | gather (hloop : s.loop = .waiting) (hover : ∀ w ∈ s.workers, w.stage.isOver = true) :
      Transition o s .main { s with
        loop := .gathered s.shared.group.error?
        shared := { s.shared with group := s.shared.group.stop .canceled } }
  /-- The pass ends in the trace, and nothing else changes. -/
  | endPass {error? : Option Interruption} (hloop : s.loop = .gathered error?) :
      Transition o s .main { s with
        loop := .ended error?
        shared := { s.shared with recorder := s.endPass.shared.recorder }
        span := s.endPass.span }
  | return {error? : Option Interruption} (hloop : s.loop = .ended error?) :
      Transition o s .main { s with loop := .returned (finalError s.shared.context error?) }
  | work {i : Nat} {w : Worker} (hstarted : i < s.started) (hw : s.workers[i]? = some w)
      (hbusy : w.stage.isOver = false) :
      Transition o s (.work i) { s with
        shared := (w.step o s.shared).1, workers := s.workers.set i (w.step o s.shared).2 }
  | cancel (e : Interruption) : Transition o s (.cancel e) (s.cancel e)
  /-- The group hears that the context of the scan is over. -/
  | spread {e : Interruption} (hcontext : s.shared.context = some e) :
      Transition o s .spread { s with
        shared := { s.shared with group := s.shared.group.stop e } }
  /-- There is nothing to do, or it has to wait. -/
  | idle {m : Move} (hm : ∀ e, m ≠ .cancel e) : Transition o s m s

theorem Move.main_ne_cancel (e : Interruption) : main ≠ cancel e := fun h => by cases h

theorem Move.work_ne_cancel (i : Nat) (e : Interruption) : work i ≠ cancel e := fun h => by cases h

theorem Move.spread_ne_cancel (e : Interruption) : spread ≠ cancel e := fun h => by cases h

theorem getElem?_started {s : Scan} {i : Nat} :
    (s.workers.take s.started)[i]? = if i < s.started then s.workers[i]? else none :=
  List.getElem?_take

theorem work_eq {o : ScanOptions} {s : Scan} {i : Nat} {w : Worker} (hstarted : i < s.started)
    (hw : s.workers[i]? = some w) :
    s.work o i = { s with
      shared := (w.step o s.shared).1, workers := s.workers.set i (w.step o s.shared).2 } := by
  rw [work, getElem?_started, if_pos hstarted, hw]

theorem set_of_getElem? {ws : List Worker} {i : Nat} {w : Worker} (hw : ws[i]? = some w) :
    ws.set i w = ws := by
  obtain ⟨hlt, hat⟩ := List.getElem?_eq_some_iff.mp hw
  rw [← hat, List.set_getElem_self]

/-! ## Steps of the scan itself -/

section Advance

variable {o : ScanOptions} {s : Scan} {path : Text} {ahead : List Text}

theorem advance_pull (hloop : s.loop = .pulling) (hahead : s.ahead = path :: ahead) :
    s.advance o = { s with loop := .pulled path, ahead } := by
  rw [advance, hloop]
  dsimp only
  rw [hahead]

theorem advance_exhaust (hloop : s.loop = .pulling) (hahead : s.ahead = []) :
    s.advance o = { s with loop := .waiting } := by
  rw [advance, hloop]
  dsimp only
  rw [hahead]

theorem advance_queue (hloop : s.loop = .pulled path)
    (hrunning : s.shared.group.context = none) :
    s.advance o = { s with
      loop := .starting
      shared := s.shared.announce { file := path, status := .queued }
      workers := s.workers ++ [{ path, position := s.position }] } := by
  rw [advance, hloop]
  dsimp only
  rw [hrunning]
  rfl

/-- There is no one to wait for when everyone has come back. -/
theorem busy_eq_zero (hover : ∀ w ∈ s.workers.take s.started, w.stage.isOver = true) :
    s.busy = 0 := by
  rw [busy, List.countP_eq_zero]
  intro w hw
  rw [hover w hw]
  exact Bool.false_ne_true

theorem advance_start (hloop : s.loop = .starting) (hroom : s.busy < o.limit) :
    s.advance o = { s with loop := .pulling } := by
  rw [advance, hloop]
  exact if_pos hroom

end Advance

/-- Every move is one of the transitions. -/
theorem transition (o : ScanOptions) (s : Scan) (m : Move) : Transition o s m (s.move o m) := by
  have hidle : ∀ {m : Move} {s' : Scan}, (∀ e, m ≠ .cancel e) → s' = s → Transition o s m s' := by
    rintro m _ hm rfl
    exact .idle hm
  cases m with
  | main =>
      change Transition o s .main (s.advance o)
      unfold advance
      cases hloop : s.loop with
      | pulling =>
          dsimp only
          split
          · rename_i hahead
            exact .exhaust hloop hahead
          · rename_i hahead
            exact .pull hloop hahead
      | pulled path =>
          dsimp only
          cases hcontext : s.shared.group.context with
          | none => exact .queue hloop hcontext
          | some e => exact .refuse hloop hcontext
      | starting =>
          dsimp only
          split
          · rename_i hroom
            exact .start hloop hroom
          · exact hidle Move.main_ne_cancel rfl
      | waiting =>
          dsimp only
          split
          · rename_i hover
            exact .gather hloop (List.all_eq_true.mp hover)
          · exact hidle Move.main_ne_cancel rfl
      | gathered error? => exact .endPass hloop
      | ended error? => exact .return hloop
      | returned error? => exact hidle Move.main_ne_cancel rfl
  | work i =>
      change Transition o s (.work i) (s.work o i)
      by_cases hstarted : i < s.started
      · cases hw : s.workers[i]? with
        | none => exact hidle (Move.work_ne_cancel i) (by rw [work, getElem?_started, if_pos hstarted, hw])
        | some w =>
            rw [work_eq hstarted hw]
            cases hover : w.stage.isOver with
            | false => exact .work hstarted hw hover
            | true =>
                refine hidle (Move.work_ne_cancel i) ?_
                rw [Worker.step_of_isOver hover, set_of_getElem? hw]
      · exact hidle (Move.work_ne_cancel i) (by rw [work, getElem?_started, if_neg hstarted])
  | cancel e => exact .cancel e
  | spread =>
      change Transition o s .spread s.spread
      unfold spread
      cases hcontext : s.shared.context with
      | none => exact hidle Move.spread_ne_cancel rfl
      | some e => exact .spread hcontext

/-! ## Workers -/

section Step

variable {o : ScanOptions} {s s' : Scan} {m : Move}

/-- A worker is there already, it is new, or it has made a step. -/
theorem Transition.mem_workers (h : Transition o s m s') {w : Worker} (hw : w ∈ s'.workers) :
    w ∈ s.workers ∨
      (∃ path, s.loop = .pulled path ∧ w = { path, position := s.position }) ∨
      ∃ v ∈ s.workers, w = (v.step o s.shared).2 := by
  cases h with
  | queue hloop _ =>
      rcases List.mem_append.mp hw with hw | hw
      · exact .inl hw
      · exact .inr (.inl ⟨_, hloop, List.mem_singleton.mp hw⟩)
  | work _ hv _ =>
      rcases List.mem_or_eq_of_mem_set hw with hw | hw
      · exact .inl hw
      · exact .inr (.inr ⟨_, List.mem_of_getElem? hv, hw⟩)
  | _ => exact .inl hw

/-- A worker stays where it is, and only a step of its own changes it. -/
theorem Transition.getElem? (h : Transition o s m s') {i : Nat} {w : Worker}
    (hw : s.workers[i]? = some w) :
    s'.workers[i]? = some w ∨
      m = .work i ∧ i < s.started ∧ w.stage.isOver = false ∧
        s'.workers[i]? = some (w.step o s.shared).2 := by
  have hlt := (List.getElem?_eq_some_iff.mp hw).1
  cases h with
  | queue => exact .inl ((List.getElem?_append_left hlt).trans hw)
  | @work j v hstarted hv hbusy =>
      by_cases hij : j = i
      · subst hij
        obtain rfl : v = w := Option.some.inj (hv.symm.trans hw)
        exact .inr ⟨rfl, hstarted, hbusy, List.getElem?_set_self hlt⟩
      · exact .inl ((List.getElem?_set_ne hij).trans hw)
  | _ => exact .inl hw

/-- A worker that is over is not changed by any move. -/
theorem Transition.getElem?_of_isOver (h : Transition o s m s') {i : Nat} {w : Worker}
    (hw : s.workers[i]? = some w) (hover : w.stage.isOver = true) : s'.workers[i]? = some w := by
  rcases h.getElem? hw with hsame | ⟨_, _, hbusy, _⟩
  · exact hsame
  · rw [hover] at hbusy
    cases hbusy

theorem Transition.started_le (h : Transition o s m s') : s.started ≤ s'.started := by
  cases h with
  | pull hloop _ | exhaust hloop _ | refuse hloop _ | queue hloop _ | start hloop _
  | gather hloop _ | endPass hloop | «return» hloop => simp [started, hloop]
  | work =>
      unfold started
      exact Nat.le_of_eq (by rw [List.length_set])
  | _ => exact Nat.le_refl _

/-! ## Files -/

/-- A move changes files only when a worker stores an entry. -/
theorem Transition.files (h : Transition o s m s') :
    s'.shared.files = s.shared.files ∨
      ∃ w ∈ s.workers, ∃ f c key, w.stage = .storing f ∧ o.keyed f = some (c, key) ∧
        c.put s.shared.files key { path := w.path, diagnostics := w.stored } =
          .ok s'.shared.files := by
  cases h with
  | @work i w _ hw _ =>
      rcases Worker.step_files o s.shared w with hsame | hstored
      · exact .inl hsame
      · exact .inr ⟨w, List.mem_of_getElem? hw, hstored⟩
  | _ => exact .inl rfl

/-! ## Lists of workers -/

/-- Another worker in the place of one does not show in what the two have in common. -/
theorem map_set_worker {α : Type} {f : Worker → α} {ws : List Worker} {i : Nat} {w v : Worker}
    (hw : ws[i]? = some w) (hf : f v = f w) : (ws.set i v).map f = ws.map f := by
  have hget : (ws.map f)[i]? = some (f w) := by
    rw [List.getElem?_map, hw, Option.map_some]
  obtain ⟨hlt, hat⟩ := List.getElem?_eq_some_iff.mp hget
  rw [List.map_set, hf, ← hat, List.set_getElem_self]

/-- What one worker adds is added to what all of them have, in whatever place it stands there. -/
theorem flatMap_set_worker {α : Type} {f : Worker → List α} {ws : List Worker} {i : Nat}
    {w v : Worker} {added : List α} (hw : ws[i]? = some w) (hf : f v = f w ++ added) :
    ((ws.set i v).flatMap f).Perm (ws.flatMap f ++ added) := by
  induction ws generalizing i with
  | nil => cases hw
  | cons u ws ih =>
      cases i with
      | zero =>
          cases hw
          simp only [List.set_cons_zero, List.flatMap_cons, hf, List.append_assoc]
          exact List.Perm.append_left _ List.perm_append_comm
      | succ i =>
          simp only [List.set_cons_succ, List.flatMap_cons, List.append_assoc]
          exact (ih hw).append_left _

/-- A step of a worker leaves all paths where they are. -/
theorem paths_set_step {o : ScanOptions} {s : Scan} {i : Nat} {w : Worker}
    (hw : s.workers[i]? = some w) :
    (s.workers.set i (w.step o s.shared).2).map (·.path) = s.workers.map (·.path) :=
  map_set_worker hw (Worker.step_path o s.shared w)

end Step

end Scan

end LineReview
