import LineReview.Proofs.Scan.Runs
import Mathlib.Data.Nat.Find
import Mathlib.Order.Basic

/-!
# Runs come to their end

A scan and its workers get their turns in some order. When the scan itself gets its
turn again and again, and so does every worker, the scan returns at some point, unless
one of its files is reviewed for ever (`Run.exists_over`).

Every step that the scan makes itself brings it nearer to its end, and no other move
takes it back (`Transition.toGo`). It may have to wait, for room or for all of its
workers; but a worker that has been started comes to its end after some of its own
turns, by the rank of its stage (`exists_turn_over`), and then the scan waits no more
(`toGo_advance`).
-/

namespace LineReview

namespace Scan

/-- The first moves of an order. -/
def turns (order : Nat → Move) (n : Nat) : List Move := (List.range n).map order

/-- The scan itself and each of the first workers get their turns again and again. -/
structure IsFair (order : Nat → Move) (count : Nat) : Prop where
  main : ∀ n, ∃ m, n ≤ m ∧ order m = .main
  work : ∀ i < count, ∀ n, ∃ m, n ≤ m ∧ order m = .work i

/-- Everyone in turn. -/
def robin (count k : Nat) : Move :=
  if k % (count + 1) < count then .work (k % (count + 1)) else .main

theorem isFair_robin (count : Nat) : IsFair (robin count) count := by
  have hround : ∀ i ≤ count, ∀ n,
      n ≤ (count + 1) * n + i ∧ ((count + 1) * n + i) % (count + 1) = i := by
    intro i hi n
    refine ⟨?_, ?_⟩
    · exact (Nat.le_mul_of_pos_left n (Nat.succ_pos count)).trans (Nat.le_add_right _ _)
    · rw [Nat.mul_add_mod, Nat.mod_eq_of_lt (Nat.lt_succ_of_le hi)]
  constructor
  · intro n
    obtain ⟨hle, hmod⟩ := hround count (Nat.le_refl _) n
    refine ⟨_, hle, ?_⟩
    rw [robin, hmod, if_neg (Nat.lt_irrefl _)]
  · intro i hi n
    obtain ⟨hle, hmod⟩ := hround i (Nat.le_of_lt hi) n
    refine ⟨_, hle, ?_⟩
    rw [robin, hmod, if_pos hi]

/-! ## How far the loop is from its end -/

/-- How many steps of its own a scan has before it at most. -/
def toGo (s : Scan) : Nat :=
  match s.loop with
  | .pulling => 3 * s.ahead.length + 4
  | .pulled _ => 3 * s.ahead.length + 6
  | .starting => 3 * s.ahead.length + 5
  | .waiting => 3
  | .gathered _ => 2
  | .ended _ => 1
  | .returned _ => 0

/-- A move brings the scan nearer to its end, or the loop stays where it is. -/
theorem Transition.toGo {o : ScanOptions} {s s' : Scan} {m : Move} (h : Transition o s m s') :
    s'.toGo < s.toGo ∨
      s'.loop = s.loop ∧ s'.ahead = s.ahead ∧ s'.workers.length = s.workers.length := by
  cases h with
  | pull hloop hahead =>
      left
      simp only [Scan.toGo, hloop, hahead, List.length_cons]
      omega
  | exhaust hloop _ | refuse hloop _ | queue hloop _ | start hloop _ | gather hloop _
  | endPass hloop | «return» hloop =>
      left
      simp only [Scan.toGo, hloop]
      omega
  | work => exact .inr ⟨rfl, rfl, List.length_set⟩
  | _ => exact .inr ⟨rfl, rfl, rfl⟩

/-- A scan does not wait for workers that are over. -/
theorem toGo_advance {o : ScanOptions} {s : Scan}
    (hover : ∀ w ∈ s.workers.take s.started, w.stage.isOver = true)
    (hloop : s.loop.isReturned = false) : (s.move o .main).toGo < s.toGo := by
  change (s.advance o).toGo < s.toGo
  unfold advance
  cases hstage : s.loop with
  | pulling =>
      dsimp only
      split
      · simp only [toGo, hstage]
        omega
      · rename_i hahead
        simp only [toGo, hstage, hahead, List.length_cons]
        omega
  | pulled path =>
      dsimp only
      split
      · simp only [toGo, hstage]
        omega
      · simp only [toGo, hstage]
        omega
  | starting =>
      dsimp only
      rw [busy_eq_zero hover, if_pos o.limit_pos]
      simp only [toGo, hstage]
      omega
  | waiting =>
      have hall : s.workers.all (·.stage.isOver) = true := by
        rw [started, if_neg (by rw [hstage]; decide), List.take_length] at hover
        exact List.all_eq_true.mpr hover
      dsimp only
      rw [if_pos hall]
      simp only [toGo, hstage]
      omega
  | gathered error? =>
      simp only [toGo, hstage]
      omega
  | ended error? =>
      simp only [toGo, hstage]
      omega
  | returned error? =>
      rw [hstage] at hloop
      cases hloop

/-! ## Turn by turn -/

section Turns

variable {o : ScanOptions} {order : Nat → Move} {s : Nat → Scan} {i n m : Nat} {w : Worker}

/-- A worker that is over stays so. -/
theorem unchanged_over (hs : ∀ n, s (n + 1) = (s n).move o (order n)) (hle : n ≤ m)
    (hw : (s n).workers[i]? = some w) (hover : w.stage.isOver = true) :
    (s m).workers[i]? = some w := by
  induction hle with
  | refl => exact hw
  | @step m _ ih =>
      rw [hs]
      exact (transition o (s m) (order m)).getElem?_of_isOver ih hover

theorem started_mono (hs : ∀ n, s (n + 1) = (s n).move o (order n)) (hle : n ≤ m) :
    (s n).started ≤ (s m).started := by
  induction hle with
  | refl => exact Nat.le_refl _
  | @step m _ ih =>
      rw [hs]
      exact ih.trans (transition o (s m) (order m)).started_le

/-- A worker stays as it is until it gets its turn. -/
theorem unchanged_until (hs : ∀ n, s (n + 1) = (s n).move o (order n)) (hle : n ≤ m)
    (hothers : ∀ k, n ≤ k → k < m → order k ≠ .work i) (hw : (s n).workers[i]? = some w) :
    (s m).workers[i]? = some w := by
  induction hle with
  | refl => exact hw
  | @step m hle ih =>
      rw [hs]
      have hstill := ih fun k hk hkm => hothers k hk (Nat.lt_succ_of_lt hkm)
      rcases (transition o (s m) (order m)).getElem? hstill with hsame | ⟨hturn, _⟩
      · exact hsame
      · exact absurd hturn (hothers m hle (Nat.lt_succ_self m))

/-- A worker that has been started and gets its turn again and again comes to its end. The induction
is on the rank of its stage, which every turn lowers. -/
theorem exists_turn_over (hs : ∀ n, s (n + 1) = (s n).move o (order n))
    (hturn : ∀ n, ∃ m, n ≤ m ∧ order m = .work i)
    (hends : ∀ n, ∀ w ∈ (s n).workers, ¬ w.IsStuck o) (k : Nat × Nat) :
    ∀ n w, i < (s n).started → (s n).workers[i]? = some w → w.stage.rank = k →
      ∃ m w', n ≤ m ∧ (s m).workers[i]? = some w' ∧ w'.stage.isOver = true := by
  induction k using (Prod.lex Nat.lt_wfRel Nat.lt_wfRel).wf.induction with
  | _ k ih =>
      intro n w hstarted hw hk
      cases hover : w.stage.isOver with
      | true => exact ⟨n, w, Nat.le_refl n, hw, hover⟩
      | false =>
          -- its next turn: until then the others step
          let next := Nat.find (hturn n)
          obtain ⟨hle, hnext⟩ : n ≤ next ∧ order next = .work i := Nat.find_spec (hturn n)
          have hothers : ∀ k, n ≤ k → k < next → order k ≠ .work i :=
            fun k hk hlt heq => Nat.find_min (hturn n) hlt ⟨hk, heq⟩
          have hstill := unchanged_until hs hle hothers hw
          have hthere := hstarted.trans_le (started_mono hs hle)
          have hstep : (s (next + 1)).workers[i]? = some (w.step o (s next).shared).2 := by
            have hlt := (List.getElem?_eq_some_iff.mp hstill).1
            rw [hs, hnext]
            change ((s next).work o i).workers[i]? = _
            rw [work_eq hthere hstill]
            exact List.getElem?_set_self hlt
          have hrank := Worker.rank_step o (s next).shared w hover
            (hends next w (List.mem_of_getElem? hstill))
          obtain ⟨m, w', hm, hw'⟩ := ih _ (hk ▸ hrank) (next + 1) _
            (hthere.trans_le (started_mono hs (Nat.le_succ next))) hstep rfl
          exact ⟨m, w', (hle.trans (Nat.le_succ next)).trans hm, hw'⟩

/-- At some point all workers that have been started by now are over. -/
theorem exists_all_over (hs : ∀ n, s (n + 1) = (s n).move o (order n)) {count : Nat}
    (hfair : IsFair order count) (hends : ∀ n, ∀ w ∈ (s n).workers, ¬ w.IsStuck o)
    (hstarted : (s n).started ≤ (s n).workers.length) (hcount : (s n).workers.length ≤ count) :
    ∃ m, n ≤ m ∧ ∀ i < (s n).started, ∃ w,
      (s m).workers[i]? = some w ∧ w.stage.isOver = true := by
  -- one more worker at a time; those that are over wait for it
  have hfirst : ∀ first ≤ (s n).started, ∃ m, n ≤ m ∧ ∀ i < first, ∃ w,
      (s m).workers[i]? = some w ∧ w.stage.isOver = true := by
    intro first
    induction first with
    | zero => exact fun _ => ⟨n, Nat.le_refl n, fun i hi => absurd hi (Nat.not_lt_zero i)⟩
    | succ first ih =>
        intro hle
        obtain ⟨m, hm, hbefore⟩ := ih (Nat.le_of_succ_le hle)
        have hw : (s n).workers[first]? = some (s n).workers[first] :=
          List.getElem?_eq_getElem (hle.trans hstarted)
        obtain ⟨k, v, hk, hv, hover⟩ := exists_turn_over hs
          (hfair.work first (by omega)) hends _ n _ hle hw rfl
        refine ⟨max m k, hm.trans (Nat.le_max_left m k), ?_⟩
        intro i hi
        by_cases heq : i = first
        · exact ⟨v, heq ▸ unchanged_over hs (Nat.le_max_right m k) hv hover, hover⟩
        · obtain ⟨w, hw, hwover⟩ := hbefore i (by omega)
          exact ⟨w, unchanged_over hs (Nat.le_max_left m k) hw hwover, hwover⟩
  exact hfirst _ (Nat.le_refl _)

theorem started_le_length (s : Scan) : s.started ≤ s.workers.length := by
  unfold started
  split
  · exact Nat.sub_le _ 1
  · exact Nat.le_refl _

/-- A scan that has not returned gets nearer to its end at some point. -/
theorem exists_toGo_lt (hs : ∀ n, s (n + 1) = (s n).move o (order n)) {count : Nat}
    (hfair : IsFair order count) (hends : ∀ n, ∀ w ∈ (s n).workers, ¬ w.IsStuck o)
    (hcount : (s n).workers.length ≤ count) (hloop : (s n).loop.isReturned = false) :
    ∃ m, n ≤ m ∧ (s m).toGo < (s n).toGo := by
  by_contra hnone
  -- otherwise the loop stays where it is
  have hsame : ∀ m, n ≤ m → (s m).loop = (s n).loop ∧ (s m).ahead = (s n).ahead ∧
      (s m).workers.length = (s n).workers.length := by
    intro m hle
    induction hle with
    | refl => exact ⟨rfl, rfl, rfl⟩
    | @step m hle ih =>
        obtain ⟨hloop, hahead, hlength⟩ := ih
        have htoGo : (s m).toGo = (s n).toGo := by rw [toGo, toGo, hloop, hahead]
        rcases (hs m ▸ transition o (s m) (order m)).toGo with hlower | ⟨hloop', hahead', hlength'⟩
        · exact absurd ⟨m + 1, Nat.le_succ_of_le hle, htoGo ▸ hlower⟩ hnone
        · exact ⟨hloop'.trans hloop, hahead'.trans hahead, hlength'.trans hlength⟩
  obtain ⟨m, hm, hover⟩ := exists_all_over hs hfair hends (started_le_length _) hcount
  obtain ⟨k, hk, hmain⟩ := hfair.main m
  obtain ⟨hloop', hahead', hlength'⟩ := hsame k (hm.trans hk)
  have hstarted : (s k).started = (s n).started := by rw [started, started, hloop', hlength']
  have htoGo : (s k).toGo = (s n).toGo := by rw [toGo, toGo, hloop', hahead']
  -- when the scan gets its turn, all the workers that it could wait for are over
  have hlower : (s (k + 1)).toGo < (s n).toGo := by
    rw [hs, hmain, ← htoGo]
    refine toGo_advance ?_ (hloop' ▸ hloop)
    intro w hw
    obtain ⟨i, hi⟩ := List.mem_iff_getElem?.mp hw
    rw [getElem?_started] at hi
    split at hi
    case isTrue hlt =>
      obtain ⟨v, hv, hvover⟩ := hover i (hstarted ▸ hlt)
      rw [unchanged_over hs hk hv hvover] at hi
      exact Option.some.inj hi ▸ hvover
    case isFalse => cases hi
  exact hnone ⟨k + 1, (hm.trans hk).trans (Nat.le_succ k), hlower⟩

/-- Under a fair order a scan returns. The induction is on how far it is from its end. -/
theorem exists_returned (hs : ∀ n, s (n + 1) = (s n).move o (order n)) {count : Nat}
    (hfair : IsFair order count) (hends : ∀ n, ∀ w ∈ (s n).workers, ¬ w.IsStuck o)
    (hcount : ∀ n, (s n).workers.length ≤ count) : ∃ n, (s n).loop.isReturned = true := by
  have hfrom : ∀ k n, (s n).toGo = k → ∃ m, (s m).loop.isReturned = true := by
    intro k
    induction k using Nat.strongRecOn with
    | _ k ih =>
        intro n hk
        cases hloop : (s n).loop.isReturned with
        | true => exact ⟨n, hloop⟩
        | false =>
            obtain ⟨m, _, hlower⟩ := exists_toGo_lt hs hfair hends (hcount n) hloop
            exact ih _ (hk ▸ hlower) m rfl
  exact hfrom _ 0 rfl

end Turns

/-! ## Runs -/

namespace Worker

/-- The file that the worker has loaded and not reviewed yet. -/
def inHand (w : Worker) : Option SourceFile :=
  match w.stage with
  | .loaded f | .kept f | .missed f => some f
  | _ => none

theorem inHand_step {o : ScanOptions} {s : Shared} {w : Worker} {f : SourceFile}
    (h : (step o s w).2.inHand = some f) :
    w.inHand = some f ∨ Reviewer.load s.files w.path = .ok f := by
  unfold step at h
  cases hstage : w.stage with
  | waiting =>
      simp only [hstage, enter] at h
      cases hcontext : s.group.context <;> simp [hcontext, inHand] at h
  | begun =>
      simp only [hstage] at h
      split at h
      · rename_i hload
        exact .inr (hload.trans (congrArg _ (Option.some.inj h)))
      · cases h
  | loaded g =>
      simp only [hstage] at h
      exact .inl (by rw [inHand, hstage]; exact h)
  | kept g =>
      simp only [hstage] at h
      rcases (lookUp_cases o s w g).2 with hmissed | ⟨c, key, e, _, _, hhit⟩
      · rw [hmissed] at h
        exact .inl (by rw [inHand, hstage]; exact h)
      · rw [hhit] at h
        cases h
  | missed g =>
      simp only [hstage] at h
      split at h
      · cases h
      · cases h
      · exact .inl h
  | reporting g rest =>
      simp only [hstage] at h
      cases rest <;> cases h
  | storing g =>
      simp only [hstage] at h
      rw [(store_cases o s w g).1] at h
      cases h
  | returning error? =>
      simp only [hstage] at h
      cases error? <;> cases h
  | finished =>
      simp only [hstage] at h
      exact .inl h
  | dropped =>
      simp only [hstage] at h
      exact .inl h
  | _ =>
      simp only [hstage] at h
      cases h

end Worker

namespace Run

/-- Every file of the run has a review that ends. -/
def Ends (r : Run) : Prop :=
  ∀ path ∈ r.paths, (r.options.reviewer.file r.shared.files path).isSome = true

/-- The reviews of short files end. -/
theorem IsShort.ends {r : Run} (h : r.IsShort) : r.Ends := by
  intro path hpath
  cases hload : Reviewer.load r.shared.files path with
  | error e => rw [Reviewer.file_of_load_error hload, Option.isSome_some]
  | ok f =>
      rw [Reviewer.file_of_load hload]
      exact Option.isSome_iff_ne_none.mpr (Reviewer.source_ne_none (h path f ⟨hpath, hload⟩))

/-- The files in the hands of the workers are those of the run. -/
theorem loads_inHand {r : Run} (hsteady : r.IsSteady) :
    ∀ ms, ms <+: r.moves → ∀ w ∈ (r.after ms).workers, w.path ∈ r.paths ∧
      ∀ f, w.inHand = some f → Reviewer.load r.shared.files w.path = .ok f := by
  refine r.along_workers (P := fun w => w.path ∈ r.paths ∧
    ∀ f, w.inHand = some f → Reviewer.load r.shared.files w.path = .ok f) ?_ ?_
  · exact fun ms path hms hloop => ⟨mem_paths_of_pulled hms hloop, nofun⟩
  · rintro ms hms w _ ⟨hpath, hloads⟩
    rw [Worker.step_path]
    refine ⟨hpath, ?_⟩
    intro f hf
    rcases Worker.inHand_step hf with hbefore | hload
    · exact hloads f hbefore
    · rw [← hsteady ms hms w.path hpath, hload]

theorem not_isStuck {r : Run} (hsteady : r.IsSteady) (hends : r.Ends) :
    ∀ w ∈ r.final.workers, ¬ w.IsStuck r.options := by
  rintro w hw ⟨f, hstage, hnone⟩
  obtain ⟨hpath, hloads⟩ := loads_inHand hsteady r.moves List.prefix_rfl w hw
  have hload := hloads f (by rw [Worker.inHand, hstage])
  have hsome := hends w.path hpath
  rw [Reviewer.file_of_load hload, hnone] at hsome
  cases hsome

/-- The run with more moves. -/
def extend (r : Run) (ms : List Move) : Run := { r with moves := r.moves ++ ms }

theorem final_extend (r : Run) (ms : List Move) :
    (r.extend ms).final = r.final.moves r.options ms := by
  rw [final, final, after, after, extend, Scan.moves, Scan.moves, Scan.moves, List.foldl_append]

/-- Taking turns calls nobody off. -/
theorem IsUncancelled.extend_robin {r : Run} (h : r.IsUncancelled) {count : Nat} (n : Nat) :
    (r.extend (turns (robin count) n)).IsUncancelled := by
  refine ⟨h.before, ?_⟩
  intro e hmem
  rcases List.mem_append.mp hmem with hmem | hmem
  · exact h.during e hmem
  · obtain ⟨k, _, hk⟩ := List.mem_map.mp hmem
    unfold robin at hk
    split at hk <;> cases hk

/-- In whatever fair order the scan and its workers go on, the run comes to its end. -/
theorem exists_over {r : Run} (hends : r.Ends) {order : Nat → Move}
    (hfair : IsFair order r.paths.length) (hsteady : ∀ n, (r.extend (turns order n)).IsSteady) :
    ∃ n, (r.extend (turns order n)).IsOver := by
  let s : Nat → Scan := fun n => (r.extend (turns order n)).final
  have hs : ∀ n, s (n + 1) = (s n).move r.options (order n) := by
    intro n
    change (r.extend _).final = Scan.move _ (r.extend _).final _
    rw [final_extend, final_extend, turns, List.range_succ, List.map_append, Scan.moves, Scan.moves,
      List.foldl_append]
    rfl
  have hcount : ∀ n, (s n).workers.length ≤ r.paths.length := by
    intro n
    have hlength := (r.extend (turns order n)).isPrefix_paths.length_le
    rwa [List.length_map] at hlength
  exact exists_returned hs hfair (fun n => not_isStuck (hsteady n) hends) hcount

end Run

end Scan

end LineReview
