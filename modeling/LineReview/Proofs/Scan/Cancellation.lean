import LineReview.Proofs.Scan.Results
import LineReview.Proofs.Scan.Resumption

/-!
# Scans that are called off

A scan may be called off at any moment: before it begins, between two paths, or
while files are being reviewed. Its group hears of that sooner or later. From then on
no path is queued, and a worker that has not begun turns back with an error; a worker
that has begun goes on to its end. What such a scan lists is therefore part of what it
would have listed otherwise (`result_of_cancelled`). Where a cache has only been filled
by scans, every worker that goes on finds what a review of its file alone finds, so the
order of the workers in the other scan does not matter.

A file whose worker has turned back leaves no trace in the result and looks like a
clean one. That a result is complete is told by the error alone (`Run.explains`).
-/

namespace LineReview

namespace Scan

/-! ## Files that are left out -/

/-- At its end a worker has the answer of a review, or it has turned back and has none. -/
theorem Run.answer_or_nothing {r : Run} (hover : r.IsOver) (hagrees : r.Agrees r.final) {w : Worker}
    (hw : w ∈ r.final.workers) :
    r.options.reviewer.file r.shared.files w.path = some w.answer ∨ w.answer = .ok [] := by
  by_cases hdropped : w.stage = .dropped
  · exact .inr (r.foundNothing w hw (.inr (by rw [Worker.hasTurnedBack, hdropped])))
  · exact .inl ((hagrees w hw).2.file_eq (isOver_final hover w hw) hdropped)

/-- Entries of workers that are missing or belong to their paths are some of the entries of the
paths. -/
theorem entries_sublist {α : Type} {entry : Worker → Option α} {found : Text → Option α}
    {ws : List Worker} (h : ∀ w ∈ ws, entry w = found w.path ∨ entry w = none) :
    (ws.filterMap entry).Sublist ((ws.map (·.path)).filterMap found) := by
  induction ws with
  | nil => exact List.Sublist.refl _
  | cons w ws ih =>
      have ih := ih fun v hv => h v (List.mem_cons_of_mem w hv)
      rw [List.map_cons]
      rcases h w List.mem_cons_self with hfound | hnone
      · cases hentry : found w.path with
        | none =>
            rw [List.filterMap_cons_none (hfound.trans hentry), List.filterMap_cons_none hentry]
            exact ih
        | some e =>
            rw [List.filterMap_cons_some (hfound.trans hentry), List.filterMap_cons_some hentry]
            exact ih.cons_cons e
      · rw [List.filterMap_cons_none hnone]
        refine ih.trans (List.Sublist.filterMap found ?_)
        exact List.sublist_cons_self _ _

namespace Run

/-- Whenever a run is over, it lists some of what its paths and files determine. -/
theorem result_sublist {r : Run} (hover : r.IsOver) (hagrees : r.Agrees r.final) :
    r.result.files.Sublist (r.paths.filterMap (r.options.reviewer.listed? r.shared.files)) ∧
    r.result.failures.Sublist (r.paths.filterMap (r.options.reviewer.failure? r.shared.files)) := by
  have hpaths := r.isPrefix_paths.sublist
  refine ⟨?_, ?_⟩
  · refine (entries_sublist ?_).trans (hpaths.filterMap _)
    intro w hw
    rcases answer_or_nothing hover hagrees hw with hanswer | hnone
    · exact .inl (Worker.entries_of_answer hanswer).1
    · exact .inr (Worker.entries_of_nothing hnone).1
  · refine (entries_sublist ?_).trans (hpaths.filterMap _)
    intro w hw
    rcases answer_or_nothing hover hagrees hw with hanswer | hnone
    · exact .inl (Worker.entries_of_answer hanswer).2
    · exact .inr (Worker.entries_of_nothing hnone).2

/-! ## Scans that were not called off -/

/-- There is no cache, or one that scans like this one have filled. -/
def IsTrusting (r : Run) : Prop :=
  r.options.cache = none ∨ ∃ c version widths runs, History c version widths runs ∧ r ∈ runs

theorem IsTrusting.agrees {r : Run} (h : r.IsTrusting) : r.Agrees r.final := by
  rcases h with hnone | ⟨c, version, widths, runs, hhistory, hr⟩
  · exact agrees_bare hnone
  · exact hhistory.agrees hr

/-- A scan over the same paths and the same files, under the same rules, that was not called off and
has come to its end. -/
structure IsUndisturbed (b r : Run) : Prop where
  reviewer : b.options.reviewer = r.options.reviewer
  files : b.shared.files = r.shared.files
  paths : b.paths = r.paths
  uncancelled : b.IsUncancelled
  isOver : b.IsOver

/-- Where caches can be trusted, every scan that was not called off lists what this one lists. -/
theorem IsUndisturbed.isPartOf {b r : Run} (hb : b.IsUndisturbed r) (hover : r.IsOver)
    (htrusting : r.IsTrusting) (htrusting' : b.IsTrusting) : r.result.IsPartOf b.result := by
  obtain ⟨hfiles, hfailures⟩ := result_sublist hover htrusting.agrees
  obtain ⟨hfiles', hfailures', _⟩ :=
    result_of_agrees hb.uncancelled hb.isOver htrusting'.agrees
  rw [hb.paths, hb.files, hb.reviewer] at hfiles' hfailures'
  exact ⟨hfiles' ▸ hfiles, hfailures' ▸ hfailures⟩

end Run

/-- Whenever a scan is called off, it returns, in whatever fair order it and its workers go on, if
the reviews of its files end. What it then lists is part of what it lists when it is not called off
but goes on, in whatever way, with the same diagnostics and the same reasons for failures; and where
caches can be trusted, it is part of what every scan lists that is not called off. It has scanned no
more than its paths. It returns without an error only when it has taken all of them and reviewed
each; the error that it returns otherwise is the reason why its context is over. -/
theorem result_of_cancelled (r : Run) :
    (r.Ends → ∀ order, IsFair order r.paths.length →
      (∀ n, (r.extend (turns order n)).IsSteady) → ∃ n, (r.extend (turns order n)).IsOver) ∧
    (r.IsOver →
      (∃ b : Run, b.options = r.options ∧ b.shared = { r.shared with context := none } ∧
        b.paths = r.paths ∧ b.IsUncancelled ∧
        (∀ more, r.result.IsPartOf (b.extend more).result) ∧
        (r.Ends → (∀ more, (b.extend more).IsSteady) →
          ∃ more, (b.extend more).IsUncancelled ∧ (b.extend more).IsOver)) ∧
      (∀ b : Run, b.IsUndisturbed r → r.IsTrusting → b.IsTrusting →
        r.result.IsPartOf b.result) ∧
      r.result.scanned ≤ r.paths.length ∧
      (r.final.loop = .returned none →
        r.final.workers.map (·.path) = r.paths ∧
        ∀ w ∈ r.final.workers, w.stage = .finished ∧
          (r.IsTrusting →
            r.options.reviewer.file r.shared.files w.path = some w.answer)) ∧
      (∀ e, r.final.loop = .returned (some e) → r.final.shared.context = some e)) := by
  refine ⟨fun hends order hfair hsteady => r.exists_over hends hfair hsteady, ?_⟩
  intro hover
  obtain ⟨ms, huncancelled, hpart⟩ := Run.exists_anew hover
  refine ⟨⟨r.anew ms, rfl, rfl, rfl, huncancelled, hpart, ?_⟩, fun b hb => hb.isPartOf hover, ?_,
    ?_, r.explains.called⟩
  · intro hends hsteady
    have hfair := isFair_robin r.paths.length
    obtain ⟨n, hn⟩ := (r.anew ms).exists_over hends hfair fun _ => hsteady _
    exact ⟨_, huncancelled.extend_robin n, hn⟩
  · have hlength := r.isPrefix_paths.length_le
    rwa [List.length_map] at hlength
  · intro hreturned
    obtain ⟨hpaths, hfinished⟩ := r.explains.complete hreturned
    refine ⟨hpaths, ?_⟩
    intro w hw
    refine ⟨hfinished w hw, ?_⟩
    intro htrusting
    refine (htrusting.agrees w hw).2.file_eq (Run.isOver_final hover w hw) ?_
    rw [hfinished w hw]
    nofun

/-- A file is under review, a missing one has been looked for, and the worker of the first file
again is still waiting when the scan is called off. One more path is asked for then, and not queued.
-/
def calledOffRun : Run :=
  { options := { jobs := 3 }
    shared := { files := sampleFiles }
    paths := [bytes "a.cpp", bytes "b.cpp", bytes "a.cpp", bytes "c.cpp", bytes "d.cpp"]
    moves := [.main, .main, .main, .work 0, .work 0, .main, .main, .main] ++
      List.replicate 9 (.work 1) ++ [.main, .main, .main, .cancel .canceled, .spread] ++
      (List.replicate 12 [.work 2, .work 0]).flatten ++ List.replicate 5 .main }

/-- The file under review is listed, and so is the missing one; the waiting one is left out. -/
theorem result_of_cancelled_midway :
    calledOffRun.IsOver ∧ calledOffRun.IsTrusting ∧
    calledOffRun.final.loop = .returned (some .canceled) ∧
    calledOffRun.result.scanned = 3 ∧
    calledOffRun.result.files.map (·.path) = [bytes "a.cpp"] ∧
    calledOffRun.result.failures.map (·.path) = [bytes "b.cpp"] ∧
    calledOffRun.result.scanned ≤ calledOffRun.paths.length ∧
    ∃ b : Run, b.IsUncancelled ∧ b.paths = calledOffRun.paths ∧
      ∀ more, calledOffRun.result.IsPartOf (b.extend more).result := by
  have hloop : calledOffRun.final.loop = .returned (some .canceled) := by decide +kernel
  have hover : calledOffRun.IsOver := by
    rw [Run.IsOver, hloop]
    rfl
  obtain ⟨⟨b, _, _, hpaths, hb, hpart, _⟩, _, hscanned, _⟩ := (result_of_cancelled _).2 hover
  exact ⟨hover, .inl rfl, hloop, by decide +kernel, by decide +kernel,
    by decide +kernel, hscanned, b, hb, hpaths, hpart⟩

end Scan

end LineReview
