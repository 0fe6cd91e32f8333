import LineReview.Proofs.Scan.Cancellation
import LineReview.Scan.Tree

/-!
# One file after the other

A sequential scan is one of the ways a scan can go: every path it is given is taken and
queued, its worker is started, and then that worker makes all of its steps
(`exists_moves_sequential`). When the reviews of all files end, the scan returns
(`Run.isOver_sequential`). So what holds of every run holds of the scan of a tree.
-/

namespace LineReview

namespace Scan

/-! ## The moves of a sequential scan -/

theorem moves_append (o : ScanOptions) (s : Scan) (ms ms' : List Move) :
    s.moves o (ms ++ ms') = (s.moves o ms).moves o ms' :=
  List.foldl_append

/-- All the steps of a worker are moves of the scan. -/
theorem exists_moves_run {o : ScanOptions} {s : Scan} {i : Nat} {w : Worker}
    (hstarted : i < s.started) (hw : s.workers[i]? = some w) :
    ∃ n, s.moves o (List.replicate n (.work i)) = { s with
      shared := (Worker.run o s.shared w).1
      workers := s.workers.set i (Worker.run o s.shared w).2 } := by
  generalize hshared : s.shared = shared
  fun_induction Worker.run o shared w generalizing s with
  | case1 shared w _ _ =>
      rename_i ih
      have hlt := (List.getElem?_eq_some_iff.mp hw).1
      have hstep : s.move o (.work i) = { s with
          shared := (w.step o shared).1, workers := s.workers.set i (w.step o shared).2 } := by
        change s.work o i = _
        rw [work_eq hstarted hw, hshared]
      have hthere : i < started { s with
          shared := (w.step o shared).1, workers := s.workers.set i (w.step o shared).2 } := by
        unfold started
        rw [List.length_set]
        exact hstarted
      obtain ⟨n, hn⟩ := ih hthere (List.getElem?_set_self hlt) rfl
      refine ⟨n + 1, ?_⟩
      rw [List.replicate_succ, moves, List.foldl_cons, hstep]
      refine hn.trans ?_
      dsimp only
      rw [List.set_set]
  | case2 shared w _ =>
      refine ⟨1, ?_⟩
      change s.work o i = _
      rw [work_eq hstarted hw, hshared]

theorem exists_moves_complete (o : ScanOptions) (s : Scan) :
    ∃ i n, s.complete o = s.moves o (List.replicate n (.work i)) := by
  unfold complete
  rw [getElem?_started]
  split
  · exact ⟨0, 0, rfl⟩
  · rename_i w hw
    split at hw
    · rename_i hstarted
      obtain ⟨n, hn⟩ := exists_moves_run (o := o) hstarted hw
      exact ⟨_, n, hn.symm⟩
    · cases hw

/-- Without being called off, a scan of one file after the other is some list of moves. -/
theorem exists_moves_feed (o : ScanOptions) (s : Scan) (paths : List Text) :
    ∃ ms, (∀ e, Move.cancel e ∉ ms) ∧ (paths.map .path).foldl (feed o) s = s.moves o ms := by
  induction paths using List.reverseRecOn with
  | nil => exact ⟨[], fun _ => List.not_mem_nil, rfl⟩
  | append_singleton paths path ih =>
      obtain ⟨ms, hms, hfeed⟩ := ih
      obtain ⟨i, n, hn⟩ := exists_moves_complete o ((s.moves o ms).moves o [.main, .main, .main])
      refine ⟨ms ++ [.main, .main, .main] ++ List.replicate n (.work i), ?_, ?_⟩
      · intro e hmem
        rw [List.mem_append, List.mem_append, List.mem_replicate] at hmem
        rcases hmem with (hmem | hmem) | ⟨_, heq⟩
        · exact hms e hmem
        · simp at hmem
        · cases heq
      · rw [List.map_append, List.foldl_append, hfeed, moves_append, moves_append, ← hn]
        rfl

theorem exists_moves_sequential (o : ScanOptions) (shared : Shared) (p : Trace.Position)
    (paths : List Text) :
    ∃ ms, (∀ e, Move.cancel e ∉ ms) ∧
      sequential o shared p (paths.map .path) = (start shared p paths).moves o ms := by
  have hpaths : (paths.map Input.path).filterMap Input.path? = paths := by
    rw [List.filterMap_map]
    exact List.filterMap_some
  obtain ⟨ms, hms, hfeed⟩ := exists_moves_feed o (start shared p paths) paths
  refine ⟨ms ++ [.main, .main, .main, .main], ?_, ?_⟩
  · intro e hmem
    rcases List.mem_append.mp hmem with hmem | hmem
    · exact hms e hmem
    · simp at hmem
  · rw [sequential, hpaths, hfeed, moves_append]

/-! ## Its end -/

/-- The steps of a worker end with its last one, unless its file is reviewed for ever. -/
theorem Worker.isOver_run {o : ScanOptions} {s : Shared} {w : Worker}
    (hends : ¬ (Worker.run o s w).2.IsStuck o) : (Worker.run o s w).2.stage.isOver = true := by
  fun_induction Worker.run o s w with
  | case1 s w r _ ih => exact ih hends
  | case2 s w r hrank =>
      cases hover : w.stage.isOver with
      | true =>
          change (step o s w).2.stage.isOver = true
          rw [step_of_isOver hover, hover]
      | false =>
          by_cases hstuck : w.IsStuck o
          · obtain ⟨f, hstage, hnone⟩ := hstuck
            have hsame : (step o s w).2 = w := by rw [step, hstage]; dsimp only; rw [hnone]
            exact absurd ⟨f, hsame ▸ hstage, hsame ▸ hnone⟩ hends
          · exact absurd (Prod.lex_def.mp (rank_step o s w hover hstuck)) hrank

/-- The last path has been reviewed and the next one is asked for. -/
structure IsBetween (s : Scan) (ahead : List Text) : Prop where
  loop : s.loop = .pulling
  ahead : s.ahead = ahead
  isOver : ∀ w ∈ s.workers, w.stage.isOver = true

theorem IsBetween.feed {o : ScanOptions} {s : Scan} {path : Text} {ahead : List Text}
    (h : s.IsBetween (path :: ahead)) (hrunning : s.shared.group.context = none)
    (hends : ∀ w ∈ (s.feed o (.path path)).workers, ¬ w.IsStuck o) :
    (s.feed o (.path path)).IsBetween ahead := by
  let queued := s.shared.announce { file := path, status := .queued }
  let v : Worker := { path, position := s.position }
  have hidle : busy { s with
      loop := .starting, ahead, shared := queued, workers := s.workers ++ [v] } = 0 := by
    refine busy_eq_zero ?_
    rw [started, if_pos rfl, List.length_append, List.length_singleton, Nat.add_sub_cancel,
      List.take_left]
    exact h.isOver
  have hstarted : ((s.advance o).advance o).advance o =
      { s with loop := .pulling, ahead, shared := queued, workers := s.workers ++ [v] } := by
    have hqueue : advance o { s with loop := .pulled path, ahead } =
        { s with loop := .starting, ahead, shared := queued, workers := s.workers ++ [v] } :=
      advance_queue rfl hrunning
    rw [advance_pull h.loop h.ahead, hqueue, advance_start rfl (hidle ▸ o.limit_pos)]
  have hfeed : s.feed o (.path path) = { s with
      loop := .pulling
      ahead
      shared := (Worker.run o queued v).1
      workers := s.workers ++ [(Worker.run o queued v).2] } := by
    rw [Scan.feed, hstarted, complete]
    simp [started, v]
  rw [hfeed] at hends ⊢
  refine ⟨rfl, rfl, ?_⟩
  intro w hw
  rcases List.mem_append.mp hw with hw | hw
  · exact h.isOver w hw
  · rw [List.mem_singleton.mp hw]
    refine Worker.isOver_run (hends _ ?_)
    exact List.mem_append_right _ List.mem_cons_self

namespace Run

/-- The run that makes other moves. -/
def making (r : Run) (ms : List Move) : Run := { r with moves := ms }

theorem final_making (r : Run) (ms : List Move) :
    (r.making ms).final = (start r.shared r.position r.paths).moves r.options ms := rfl

/-- After the first paths the sequential scan is between two paths. -/
theorem isBetween_feed {r : Run} (hrunning : r.shared.context = none) (hends : r.Ends)
    (hsteady : ∀ ms, (r.making ms).IsSteady) {before ahead : List Text}
    (hpaths : r.paths = before ++ ahead) :
    ((before.map .path).foldl (feed r.options)
      (start r.shared r.position r.paths)).IsBetween ahead := by
  induction before using List.reverseRecOn generalizing ahead with
  | nil =>
      refine ⟨rfl, hpaths, ?_⟩
      intro w hw
      cases hw
  | append_singleton before path ih =>
      have hs := @ih (path :: ahead) (by rw [hpaths, List.append_assoc]; rfl)
      rw [List.map_append, List.foldl_append]
      refine hs.feed ?_ ?_
      · obtain ⟨ms, hms, hfeed⟩ := exists_moves_feed r.options
          (start r.shared r.position r.paths) before
        rw [hfeed, ← final_making] at hs ⊢
        have hcontext := running (r := r.making ms) ⟨hrunning, hms⟩ ms List.prefix_rfl
        by_contra hover
        refine ((r.making ms).isLinked ms List.prefix_rfl).context_of_group ?_ hover hcontext
        rw [show ((r.making ms).after ms).loop = .pulling from hs.loop]
        rfl
      · obtain ⟨ms, _, hfeed⟩ := exists_moves_feed r.options
          (start r.shared r.position r.paths) (before ++ [path])
        rw [List.map_append, List.foldl_append] at hfeed
        change ∀ w ∈ ((([path].map Input.path)).foldl (feed r.options) _).workers, _
        rw [hfeed, ← final_making]
        exact not_isStuck (r := r.making ms) (hsteady ms) hends

/-- When the reviews of its files end, a scan of one file after the other comes to its end. -/
theorem isReturned_sequential {r : Run} (hrunning : r.shared.context = none) (hends : r.Ends)
    (hsteady : ∀ ms, (r.making ms).IsSteady) :
    (sequential r.options r.shared r.position (r.paths.map .path)).loop.isReturned = true := by
  have hall := isBetween_feed hrunning hends hsteady (List.append_nil r.paths).symm
  have hpaths : (r.paths.map Input.path).filterMap Input.path? = r.paths := by
    rw [List.filterMap_map]
    exact List.filterMap_some
  rw [sequential, hpaths]
  generalize (r.paths.map Input.path).foldl (feed r.options) _ = s at hall
  have hover : s.workers.all (·.stage.isOver) = true := List.all_eq_true.mpr hall.isOver
  simp [Scan.moves, move, advance, hall.loop, hall.ahead, hover, endPass, Loop.isReturned]

/-- A scan of one file after the other is a run that was not called off. -/
theorem exists_run_sequential (o : ScanOptions) {shared : Shared} (p : Trace.Position)
    (paths : List Text) (hrunning : shared.context = none) :
    ∃ r : Run, r.options = o ∧ r.shared = shared ∧ r.position = p ∧ r.paths = paths ∧
      r.IsUncancelled ∧ r.final = sequential o shared p (paths.map .path) := by
  obtain ⟨ms, hms, hfinal⟩ := exists_moves_sequential o shared p paths
  exact ⟨⟨o, shared, p, paths, ms⟩, rfl, rfl, rfl, rfl, ⟨hrunning, hms⟩, hfinal.symm⟩

end Run

end Scan

/-- The run is a scan of the tree of a walker: it was not called off, and it has come to its end. -/
structure Scan.Run.IsScanOf (r : Scan.Run) (w : Walker) (fs : FileSystem) : Prop where
  files : r.shared.files = fs
  paths : r.paths = WalkItem.files (w.items fs)
  uncancelled : r.IsUncancelled
  isOver : r.IsOver
  trusting : r.IsTrusting

/-- Without a cache, the scan of a tree is such a run when the reviews of its files end. -/
theorem TreeScan.exists_isScanOf (o : ScanOptions) (shared : Scan.Shared) (p : Trace.Position)
    (w : Walker) (hcache : o.cache = none) (hrunning : shared.context = none)
    (hends : ∀ path ∈ WalkItem.files (w.items shared.files),
      (o.reviewer.file shared.files path).isSome = true) :
    ∃ r : Scan.Run, r.options = o ∧ r.IsScanOf w shared.files ∧
      r.final = (TreeScan.run o shared p w).scan := by
  obtain ⟨r, rfl, rfl, rfl, hpaths, huncancelled, hfinal⟩ :=
    Scan.Run.exists_run_sequential o p (WalkItem.files (w.items shared.files)) hrunning
  have hover : r.IsOver := by
    rw [Scan.Run.IsOver, hfinal, ← hpaths]
    refine Scan.Run.isReturned_sequential hrunning ?_ fun _ => Scan.Run.isSteady_bare hcache
    rw [Scan.Run.Ends, hpaths]
    exact hends
  exact ⟨r, rfl, ⟨rfl, hpaths, huncancelled, hover, .inl hcache⟩, hfinal⟩

end LineReview
