import LineReview.Proofs.Progress.Counters
import LineReview.Proofs.Scan.Results

/-!
# The news of a scan

Every worker tells three things about its file, in this order: that it is queued,
that it is worked on, and how it came out. `Worker.told` is what it has told at
each stage, and a step tells exactly what is missing (`step_told`). However the
workers alternate, the news of one file therefore come in that order and the news
of all files are those of all workers (`told_of_file`, `told_perm`).

A progress view that reads the news agrees with its own items at every moment, and
at the end with the result of the scan (`progress_agrees`).
-/

namespace LineReview.Scan

open Progress (Event View)

namespace Worker

/-! ## What a worker tells -/

/-- All that is ever told about a file. -/
def story (w : Worker) : List Event :=
  [{ file := w.path, status := .queued }, { file := w.path, status := .working }, w.outcome]

/-- What a worker has told about its file so far. -/
def told (w : Worker) : List Event :=
  w.story.take <| match w.stage with
    | .waiting | .admitted | .opened | .returning (some _) | .dropped => 1
    | .begun | .loaded _ | .kept _ | .missed _ | .reporting _ _ | .storing _ | .settled
    | .recorded => 2
    | .closing | .returning none | .finished => 3

theorem file_outcome (w : Worker) : w.outcome.file = w.path := by
  unfold outcome
  split <;> rfl

theorem isFinal_outcome (w : Worker) : w.outcome.status.isFinal = true := by
  unfold outcome
  split
  · rfl
  · dsimp only
    split <;> rfl

theorem file_of_mem_told {w : Worker} {e : Event} (h : e ∈ w.told) : e.file = w.path := by
  have hstory := List.mem_of_mem_take h
  simp only [story, List.mem_cons, List.not_mem_nil, or_false] at hstory
  rcases hstory with rfl | rfl | rfl
  · rfl
  · rfl
  · exact w.file_outcome

/-- Only the last thing that a worker tells is final. -/
theorem pairwise_told (w : Worker) : w.told.Pairwise fun a _ => a.status.isFinal = false := by
  refine List.Pairwise.sublist (List.take_sublist _ _) ?_
  simp [story, Progress.Status.isFinal]

theorem progress_lookUp (o : ScanOptions) (s : Shared) (w : Worker) (f : SourceFile) :
    (lookUp o s w f).1.progress = s.progress := by
  unfold lookUp
  split
  · rfl
  · split <;> rfl

theorem progress_store (o : ScanOptions) (s : Shared) (w : Worker) (f : SourceFile) :
    (store o s w f).1.progress = s.progress := by
  unfold store
  split
  · rfl
  · dsimp only
    split <;> rfl

/-- A step tells what the worker has told after it and had not told before. -/
theorem step_told (o : ScanOptions) (s : Shared) (w : Worker) :
    ∃ es, (step o s w).1.progress = s.progress ++ es ∧ (step o s w).2.told = w.told ++ es := by
  have hnothing : ∀ {s' : Shared} {w' : Worker}, s'.progress = s.progress → w'.told = w.told →
      ∃ es, s'.progress = s.progress ++ es ∧ w'.told = w.told ++ es :=
    fun hs hw => ⟨[], by rw [hs, List.append_nil], by rw [hw, List.append_nil]⟩
  unfold step
  cases hstage : w.stage with
  | waiting =>
      refine hnothing rfl ?_
      unfold enter
      cases s.group.context <;> simp [told, story, hstage]
  | admitted => exact hnothing rfl (by simp [told, story, hstage])
  | opened => exact ⟨_, rfl, by simp [told, story, hstage]⟩
  | begun =>
      dsimp only
      split <;> exact hnothing rfl (by simp [told, story, hstage])
  | loaded f =>
      refine hnothing ?_ (by simp [told, story, hstage])
      dsimp only
      split <;> rfl
  | kept f =>
      refine hnothing (progress_lookUp o s w f) ?_
      rcases (lookUp_cases o s w f).2 with h | ⟨c, key, e, _, _, h⟩ <;>
        simp [told, story, hstage, h]
  | missed f =>
      dsimp only
      split
      · exact hnothing rfl (by simp [told, story, hstage])
      · exact hnothing rfl (by simp [told, story, hstage])
      · exact hnothing rfl rfl
  | reporting f rest => cases rest <;> exact hnothing rfl (by simp [told, story, hstage])
  | storing f =>
      refine hnothing (progress_store o s w f) ?_
      simp [told, story, hstage, (store_cases o s w f).1]
  | settled =>
      refine hnothing ?_ (by simp [told, story, hstage])
      dsimp only
      split <;> rfl
  | recorded => exact ⟨_, rfl, by simp [told, story, hstage, outcome]⟩
  | closing => exact hnothing rfl (by simp [told, story, hstage]; rfl)
  | returning error? =>
      refine hnothing rfl ?_
      cases error? with
      | none =>
          simp [leave, told, story, hstage]
          rfl
      | some e => simp [leave, told, story, hstage]
  | finished => exact hnothing rfl rfl
  | dropped => exact hnothing rfl rfl

/-! ## What a worker has found -/

/-- What a worker has found fits its stage: nothing before the file was reviewed, and nothing when
the review has failed. -/
def Coherent (w : Worker) : Prop :=
  match w.stage with
  | .waiting | .admitted | .opened | .begun | .loaded _ | .kept _ | .missed _
  | .returning (some _) | .dropped =>
    w.failure = none ∧ w.diagnostics = [] ∧ w.isCached = false
  | .reporting _ _ | .storing _ => w.failure = none ∧ w.isCached = false
  | .settled | .recorded | .closing | .returning none | .finished =>
    w.failure = none ∨ w.diagnostics = [] ∧ w.isCached = false

theorem coherent_step {o : ScanOptions} {s : Shared} {w : Worker} (h : w.Coherent) :
    (step o s w).2.Coherent := by
  have hcoherent := h
  unfold Coherent at h
  unfold step
  cases hstage : w.stage with
  | waiting =>
      rw [hstage] at h
      unfold enter
      cases s.group.context <;> exact h
  | begun =>
      rw [hstage] at h
      dsimp only
      split
      · exact h
      · exact .inr h.2
  | kept f =>
      rw [hstage] at h
      dsimp only
      rcases (lookUp_cases o s w f).2 with hmissed | ⟨c, key, e, _, _, hhit⟩
      · rw [hmissed]
        exact h
      · rw [hhit]
        exact .inl h.1
  | missed f =>
      rw [hstage] at h
      dsimp only
      split
      · exact ⟨h.1, h.2.2⟩
      · exact .inr h.2
      · exact hcoherent
  | reporting f rest =>
      rw [hstage] at h
      cases rest <;> exact h
  | storing f =>
      rw [hstage] at h
      dsimp only
      rw [(store_cases o s w f).1]
      exact .inl h.1
  | returning error? =>
      rw [hstage] at h
      cases error? <;> exact h
  | finished => exact hcoherent
  | dropped => exact hcoherent
  | _ =>
      rw [hstage] at h
      exact h

end Worker

namespace Run

theorem coherent (r : Run) : ∀ ms, ms <+: r.moves → ∀ w ∈ (r.after ms).workers, w.Coherent :=
  r.along_workers (fun _ _ _ _ => ⟨rfl, rfl, rfl⟩) fun _ _ _ _ h => Worker.coherent_step h

/-! ## News of all files -/

/-- News are sent when a path is queued and by the steps of workers. What is kept by both holds all
along a run, whether it is called off or not. -/
theorem along_news {r : Run} {P : List Event → List Worker → Prop} (hstart : P r.shared.progress [])
    (hqueue : ∀ ms path, ms <+: r.moves → (r.after ms).loop = .pulled path →
      P (r.after ms).shared.progress (r.after ms).workers →
      P ((r.after ms).shared.progress ++ [{ file := path, status := .queued }])
        ((r.after ms).workers ++ [{ path, position := (r.after ms).position }]))
    (hwork : ∀ ms i w, ms <+: r.moves → (r.after ms).workers[i]? = some w →
      P (r.after ms).shared.progress (r.after ms).workers →
      P (w.step r.options (r.after ms).shared).1.progress
        ((r.after ms).workers.set i (w.step r.options (r.after ms).shared).2)) :
    ∀ ms, ms <+: r.moves → P (r.after ms).shared.progress (r.after ms).workers := by
  refine r.along (P := fun _ s => P s.shared.progress s.workers) hstart ?_
  intro ms m s' hms ht hs
  have hbefore := (List.prefix_append ms [m]).trans hms
  cases ht with
  | queue hloop _ => exact hqueue ms _ hbefore hloop hs
  | work _ hw _ => exact hwork ms _ _ hbefore hw hs
  | _ => exact hs

/-- All the news are those of the workers. -/
theorem told_perm {r : Run} (hquiet : r.shared.progress = []) :
    ∀ ms, ms <+: r.moves →
      (r.after ms).shared.progress.Perm ((r.after ms).workers.flatMap Worker.told) := by
  refine along_news (P := fun es ws => es.Perm (ws.flatMap Worker.told)) ?_ ?_ ?_
  · rw [hquiet]
    exact .refl _
  · intro ms path _ _ hs
    rw [List.flatMap_append]
    exact hs.append_right _
  · intro ms i w _ hw hs
    obtain ⟨es, hprogress, htold⟩ := w.step_told r.options (r.after ms).shared
    rw [hprogress]
    exact (hs.append_right es).trans (flatMap_set_worker hw htold).symm

theorem file_of_mem_progress {r : Run} (hquiet : r.shared.progress = []) {e : Event}
    (he : e ∈ r.final.shared.progress) : e.file ∈ r.paths := by
  have hperm := told_perm hquiet r.moves List.prefix_rfl
  obtain ⟨w, hw, he⟩ := List.mem_flatMap.mp (hperm.mem_iff.mp he)
  rw [Worker.file_of_mem_told he]
  exact r.isPrefix_paths.subset (List.mem_map_of_mem hw)

/-! ## News of one file -/

/-- Whoever else steps in between, the news of a file are those of its worker, in their order. -/
structure TellsApart (es : List Event) (ws : List Worker) : Prop where
  known : ∀ (i : Nat) (w : Worker), ws[i]? = some w → es.filter (·.file = w.path) = w.told
  unknown : ∀ path, path ∉ ws.map (·.path) → es.filter (·.file = path) = []

theorem filter_eq_nil_of_file {es : List Event} {path other : Text} (h : ∀ e ∈ es, e.file = path)
    (hne : path ≠ other) : es.filter (·.file = other) = [] := by
  rw [List.filter_eq_nil_iff]
  intro e he
  rw [h e he, decide_eq_true_eq]
  exact hne

theorem nodup_after {r : Run} (hdistinct : r.paths.Nodup) {ms : List Move} (hms : ms <+: r.moves) :
    ((r.after ms).workers.map (·.path)).Nodup :=
  hdistinct.sublist (r.takes ms hms).isPrefix.sublist

/-- The path that is about to be queued is a new one. -/
theorem notMem_after {r : Run} (hdistinct : r.paths.Nodup) {ms : List Move} {path : Text}
    (hms : ms <+: r.moves) (hloop : (r.after ms).loop = .pulled path) :
    path ∉ (r.after ms).workers.map (·.path) := by
  have hpaths := (r.takes ms hms).pulling (by rw [hloop]; rfl)
  rw [hloop] at hpaths
  rw [← hpaths, List.append_assoc] at hdistinct
  exact fun hmem => (List.nodup_append.mp hdistinct).2.2 _ hmem path (by simp [Loop.inHand]) rfl

/-- What a step tells is about the file of its worker. -/
theorem file_of_step {o : ScanOptions} {s : Shared} {w : Worker} {es : List Event}
    (htold : (w.step o s).2.told = w.told ++ es) : ∀ e ∈ es, e.file = w.path := by
  intro e he
  rw [← w.step_path o s]
  refine Worker.file_of_mem_told ?_
  rw [htold]
  exact List.mem_append_right _ he

theorem tellsApart {r : Run} (hquiet : r.shared.progress = []) (hdistinct : r.paths.Nodup) :
    ∀ ms, ms <+: r.moves → TellsApart (r.after ms).shared.progress (r.after ms).workers := by
  refine along_news ?_ ?_ ?_
  · rw [hquiet]
    refine ⟨?_, fun _ _ => rfl⟩
    intro i w hw
    cases hw
  · intro ms path hms hloop hs
    have hnew := notMem_after hdistinct hms hloop
    have hfiles : ∀ e ∈ [({ file := path, status := .queued } : Event)], e.file = path := by simp
    constructor
    · intro i w hw
      rw [List.filter_append]
      rw [List.getElem?_append] at hw
      split at hw
      · have hne : path ≠ w.path := fun heq =>
          hnew (heq ▸ List.mem_map_of_mem (List.mem_of_getElem? hw))
        rw [filter_eq_nil_of_file hfiles hne, List.append_nil, hs.known i w hw]
      · have heq := List.mem_singleton.mp (List.mem_of_getElem? hw)
        subst heq
        rw [hs.unknown path hnew]
        simp [Worker.told, Worker.story]
    · intro other hother
      rw [List.map_append, List.mem_append, not_or] at hother
      have hne : path ≠ other := fun heq => hother.2 (by simp [heq])
      rw [List.filter_append, hs.unknown other hother.1, filter_eq_nil_of_file hfiles hne]
      rfl
  · intro ms i w hms hw hs
    obtain ⟨es, hprogress, htold⟩ := w.step_told r.options (r.after ms).shared
    have hpath := w.step_path r.options (r.after ms).shared
    have hfiles := file_of_step htold
    constructor
    · intro j v hv
      rw [hprogress, List.filter_append]
      by_cases hij : i = j
      · subst hij
        rw [List.getElem?_set_self (List.getElem?_eq_some_iff.mp hw).1] at hv
        cases hv
        rw [hpath, hs.known i w hw, htold, List.filter_eq_self.mpr]
        intro e he
        simp [hfiles e he]
      · rw [List.getElem?_set_ne hij] at hv
        have hne : w.path ≠ v.path := by
          intro heq
          have hlt : i < ((r.after ms).workers.map (·.path)).length := by
            rw [List.length_map]
            exact (List.getElem?_eq_some_iff.mp hw).1
          refine hij ((List.getElem?_inj hlt (nodup_after hdistinct hms)).mp ?_)
          rw [List.getElem?_map, List.getElem?_map, hw, hv, Option.map_some, Option.map_some, heq]
        rw [filter_eq_nil_of_file hfiles hne, List.append_nil, hs.known j v hv]
    · intro other hother
      rw [map_set_worker hw hpath] at hother
      have hne : w.path ≠ other := by
        rintro rfl
        exact hother (List.mem_map_of_mem (List.mem_of_getElem? hw))
      rw [hprogress, List.filter_append, hs.unknown other hother, filter_eq_nil_of_file hfiles hne]
      rfl

theorem endsOnce_progress {r : Run} (hquiet : r.shared.progress = []) (hdistinct : r.paths.Nodup) :
    Progress.EndsOnce r.final.shared.progress := by
  have hapart := tellsApart hquiet hdistinct r.moves List.prefix_rfl
  refine Progress.endsOnce_of_files ?_
  intro path
  by_cases hpath : path ∈ r.final.workers.map (·.path)
  · obtain ⟨w, hw, rfl⟩ := List.mem_map.mp hpath
    obtain ⟨i, hi⟩ := List.mem_iff_getElem?.mp hw
    exact (hapart.known i w hi).symm ▸ w.pairwise_told
  · exact (hapart.unknown path hpath).symm ▸ List.Pairwise.nil

/-- Files are first heard of in the order in which they are queued. -/
theorem heard_progress {r : Run} (hquiet : r.shared.progress = []) (hdistinct : r.paths.Nodup) :
    Progress.heard r.final.shared.progress = r.final.workers.map (·.path) := by
  refine along_news (P := fun es ws => Progress.heard es = ws.map (·.path)) ?_ ?_ ?_ r.moves
    List.prefix_rfl
  · rw [hquiet]
    rfl
  · intro ms path hms hloop hs
    rw [Progress.heard_concat, hs, if_neg (notMem_after hdistinct hms hloop), List.map_append]
    rfl
  · intro ms i w _ hw hs
    obtain ⟨es, hprogress, htold⟩ := w.step_told r.options (r.after ms).shared
    rw [map_set_worker hw (w.step_path r.options (r.after ms).shared), hprogress,
      Progress.heard_append, hs]
    intro e he
    rw [hs, file_of_step htold e he]
    exact List.mem_map_of_mem (List.mem_of_getElem? hw)

/-! ## News at the end -/

theorem told_of_finished {w : Worker} (h : w.stage = .finished) : w.told = w.story := by
  simp [Worker.told, Worker.story, h]

/-- Of the news about finished files, those of a final status are the outcomes. -/
theorem countP_told {final : Progress.Status → Bool}
    (hfinal : ∀ s, final s = true → s.isFinal = true) {ws : List Worker}
    (hws : ∀ w ∈ ws, w.stage = .finished) :
    (ws.flatMap Worker.told).countP (final ·.status) = ws.countP (final ·.outcome.status) := by
  have hqueued : final .queued = false := by
    by_contra h
    cases hfinal _ (Bool.not_eq_false _ ▸ h)
  have hworking : final .working = false := by
    by_contra h
    cases hfinal _ (Bool.not_eq_false _ ▸ h)
  induction ws with
  | nil => rfl
  | cons w ws ih =>
      rw [List.flatMap_cons, List.countP_append, ih fun v hv => hws v (List.mem_cons_of_mem w hv),
        told_of_finished (hws w (by simp)), List.countP_cons]
      simp only [Worker.story, List.countP_cons, List.countP_nil, hqueued, hworking]
      simp
      omega

/-- The result counts the diagnostics of the workers that did not fail. -/
theorem count_result (s : Scan) :
    s.result.count =
      (s.workers.map fun w => if w.failure.isNone then w.diagnostics.length else 0).sum := by
  simp only [ScanResult.count, Scan.result]
  induction s.workers with
  | nil => rfl
  | cons w ws ih =>
      rw [List.map_cons, List.sum_cons, ← ih, List.filterMap_cons]
      cases hfailure : w.failure with
      | some e => simp
      | none =>
          cases hdiagnostics : w.diagnostics with
          | nil => simp
          | cons d ds => simp [Nat.add_right_comm]

/-- What finished files add to the number of diagnostics is what the result counts. -/
theorem sum_found_told {s : Scan} (hs : ∀ w ∈ s.workers, w.stage = .finished) :
    ((s.workers.flatMap Worker.told).map Event.found).sum = Int64.ofNat s.result.count := by
  rw [count_result]
  generalize s.workers = ws at hs
  induction ws with
  | nil => rfl
  | cons w ws ih =>
      have ih := ih fun v hv => hs v (List.mem_cons_of_mem w hv)
      have hfound : (w.story.map Event.found).sum =
          Int64.ofNat (if w.failure.isNone then w.diagnostics.length else 0) := by
        cases hfailure : w.failure <;> cases hcached : w.isCached <;>
          simp [Worker.story, Event.found, Worker.outcome, hfailure, hcached]
      rw [List.flatMap_cons, List.map_append, List.sum_append, ih,
        told_of_finished (hs w (by simp)), hfound, List.map_cons, List.sum_cons, Int64.ofNat_add]

theorem failed_outcome (w : Worker) :
    decide (w.outcome.status = .error) = (w.failure.map fun e => Failure.mk w.path e).isSome := by
  unfold Worker.outcome
  cases hfailure : w.failure with
  | some e => rfl
  | none => cases w.isCached <;> rfl

theorem cached_outcome {w : Worker} (hfinished : w.stage = .finished) (h : w.Coherent) :
    decide (w.outcome.status = .cached) = w.isCached := by
  unfold Worker.Coherent at h
  rw [hfinished] at h
  unfold Worker.outcome
  rcases h with hfailure | ⟨_, hcached⟩
  · rw [hfailure]
    cases w.isCached <;> rfl
  · rw [hcached]
    cases w.failure <;> rfl

/-- The counters of a view that has heard all the news are the numbers of the result. -/
theorem tally_final {r : Run} (h : r.IsUncancelled) (hquiet : r.shared.progress = [])
    (hover : r.IsOver) {v : View} (hv : View.Tallied v r.final.shared.progress) :
    v.finished = r.result.scanned ∧ v.failed = r.result.failures.length ∧
      v.cached = r.result.cached ∧ v.diagnostics = Int64.ofNat r.result.count := by
  have hperm : r.final.shared.progress.Perm (r.final.workers.flatMap Worker.told) :=
    told_perm hquiet r.moves List.prefix_rfl
  have hfinished := finished_final h hover
  have hcount : ∀ final : Progress.Status → Bool, (∀ s, final s = true → s.isFinal = true) →
      r.final.shared.progress.countP (final ·.status) =
        r.final.workers.countP (final ·.outcome.status) := fun final hfinal =>
    (hperm.countP_eq _).trans (countP_told hfinal hfinished)
  refine ⟨?_, ?_, ?_, ?_⟩
  · rw [hv.finished, hcount Progress.Status.isFinal fun _ hs => hs]
    exact List.countP_eq_length.mpr fun w _ => w.isFinal_outcome
  · rw [hv.failed, hcount (· = .error) (by rintro s hs; simp_all [Progress.Status.isFinal])]
    simp only [failed_outcome]
    exact List.length_filterMap_eq_countP.symm
  · rw [hv.cached, hcount (· = .cached) (by rintro s hs; simp_all [Progress.Status.isFinal])]
    refine List.countP_congr ?_
    intro w hw
    rw [cached_outcome (hfinished w hw) (r.coherent r.moves List.prefix_rfl w hw)]
  · rw [hv.diagnostics, Progress.sum_found_perm hperm]
    exact sum_found_told hfinished

end Run

/-! ## The view and the scan -/

/-- A progress view that reads the news of a scan is consistent at every moment: whatever else it
reacts to in between, its counters are what its items add up to. When the scan is over, every file
was told to be queued, then to be worked on, and then to have come out in one of three ways; and a
view that has read all of that shows the numbers of the result. -/
theorem progress_agrees {r : Run} (huncancelled : r.IsUncancelled)
    (hquiet : r.shared.progress = []) (hdistinct : r.paths.Nodup) (hnamed : [] ∉ r.paths)
    (title : Text) :
    (∀ ms, ms.filterMap Progress.Message.news? <+: r.final.shared.progress →
      let v := View.after title ms
      v.finished = v.items.countP (·.status.isFinal) ∧ v.finished ≤ v.items.length ∧
      v.cached + v.failed ≤ v.finished ∧ v.diagnostics = (v.items.map (·.diagnostics)).sum) ∧
    (r.IsOver →
      (∀ path ∈ r.paths, ∃ e : Event,
        (e.status = .done ∨ e.status = .cached ∨ e.status = .error) ∧
        r.final.shared.progress.filter (·.file = path) =
          [{ file := path, status := .queued }, { file := path, status := .working }, e]) ∧
      ∀ ms, ms.filterMap Progress.Message.news? = r.final.shared.progress →
        let v := View.after title ms
        v.items.length = r.result.scanned ∧ v.finished = r.result.scanned ∧
        v.failed = r.result.failures.length ∧ v.cached = r.result.cached ∧
        v.diagnostics = Int64.ofNat r.result.count) := by
  constructor
  · intro ms hms
    have hends := (Run.endsOnce_progress hquiet hdistinct).sublist hms.sublist
    have hbalanced : View.Balanced (View.after title ms) _ := View.balanced_after hends
    exact ⟨hbalanced.finished, hbalanced.bounds.1, hbalanced.bounds.2, hbalanced.diagnostics⟩
  intro hover
  constructor
  · intro path hpath
    rw [← Run.paths_final huncancelled hover] at hpath
    obtain ⟨w, hw, rfl⟩ := List.mem_map.mp hpath
    obtain ⟨i, hi⟩ := List.mem_iff_getElem?.mp hw
    have hapart := Run.tellsApart hquiet hdistinct r.moves List.prefix_rfl
    refine ⟨w.outcome, ?_, (hapart.known i w hi).trans ?_⟩
    · have hfinal := w.isFinal_outcome
      cases hstatus : w.outcome.status <;> simp_all [Progress.Status.isFinal]
    · exact Run.told_of_finished (Run.finished_final huncancelled hover w hw)
  · intro ms hms
    have hfiles : ∀ e ∈ ms.filterMap Progress.Message.news?, e.file ≠ [] := by
      intro e he hnil
      rw [hms] at he
      exact hnamed (hnil ▸ Run.file_of_mem_progress hquiet he)
    have htallied : View.Tallied (View.after title ms) _ := View.tallied_after hfiles
    have hpaths : (View.after title ms).items.map (·.path) = _ := View.paths_after hfiles
    rw [hms] at htallied hpaths
    rw [Run.heard_progress hquiet hdistinct] at hpaths
    refine ⟨?_, Run.tally_final huncancelled hquiet hover htallied⟩
    have hlength := congrArg List.length hpaths
    rwa [List.length_map, List.length_map] at hlength

/-- Two workers that alternate, on a file with a diagnostic and a missing one. -/
def alternatingPair : Run :=
  { options := { jobs := 2 }
    shared := { files := sampleFiles }
    paths := [bytes "a.cpp", bytes "b.cpp"]
    moves := [.main, .main, .main, .work 0, .main, .main, .main] ++
      (List.replicate 14 [.work 1, .work 0]).flatten ++ List.replicate 4 .main }

/-- A view that ticks and is resized while it reads the news of the two. -/
theorem progress_agrees_pair :
    let ms := Progress.Message.tick ::
      (alternatingPair.final.shared.progress.map .event ++ [.resize 40])
    let v := View.after (bytes "review") ms
    alternatingPair.IsUncancelled ∧ alternatingPair.IsOver ∧ alternatingPair.paths.Nodup ∧
    [] ∉ alternatingPair.paths ∧ v.items.length = 2 ∧
    v.finished = alternatingPair.result.scanned ∧ v.failed = 1 ∧ v.diagnostics = 1 ∧
    v.diagnostics = (v.items.map (·.diagnostics)).sum := by
  intro ms v
  have huncancelled : alternatingPair.IsUncancelled :=
    ⟨rfl, fun e => by cases e <;> decide⟩
  have hover : alternatingPair.IsOver := by
    unfold Run.IsOver
    decide +kernel
  have hdistinct : alternatingPair.paths.Nodup := by decide +kernel
  have hnamed : [] ∉ alternatingPair.paths := by decide +kernel
  have hnews : ms.filterMap Progress.Message.news? = alternatingPair.final.shared.progress := by
    have hevents : (Progress.Message.news? ∘ Progress.Message.event) = some := rfl
    rw [List.filterMap_cons_none rfl, List.filterMap_append, List.filterMap_map, hevents,
      List.filterMap_some]
    exact List.append_nil _
  obtain ⟨hmoment, hend⟩ :=
    progress_agrees huncancelled rfl hdistinct hnamed (bytes "review")
  obtain ⟨hitems, hfinished, hfailed, _, hdiagnostics⟩ := (hend hover).2 ms hnews
  have hsum := (hmoment ms (hnews ▸ List.prefix_rfl)).2.2.2
  have hresult : alternatingPair.result.scanned = 2 ∧
      alternatingPair.result.failures.length = 1 ∧ alternatingPair.result.count = 1 := by
    decide +kernel
  obtain ⟨hscanned, hfailures, hcount⟩ := hresult
  rw [hscanned] at hitems
  rw [hfailures] at hfailed
  rw [hcount] at hdiagnostics
  exact ⟨huncancelled, hover, hdistinct, hnamed, hitems, hfinished, hfailed, hdiagnostics, hsum⟩

end LineReview.Scan
