import LineReview.Progress.View
import Mathlib.Data.List.Basic
import Mathlib.Data.List.Induction

/-!
# The counters of the progress view

The view keeps its counters and its items apart: a counter goes up when an event
comes in, and the item of the event's file is changed beside it. Two statements
say what that amounts to. Over any events the counters are the numbers of events
of each kind (`Tallied`). And as long as nothing is told about a file after its
review has ended, they are also what the items add up to (`Balanced`): a final
event then always meets an item that was not counted before.

The view may react to other messages between the events, which do not matter.
-/

namespace LineReview.Progress

/-- The news that a message brings. -/
def Message.news? : Message → Option Event
  | .event e => some e
  | _ => none

/-- What an event adds to the number of diagnostics. -/
def Event.found (e : Event) : Int64 :=
  if e.status = .done || e.status = .cached then e.diagnostics else 0

/-- Nothing is told about a file after its review has ended. -/
def EndsOnce (es : List Event) : Prop :=
  es.Pairwise fun a b => a.file = b.file → a.status.isFinal = false

/-- The files that events speak of, in the order in which they are first heard of. -/
def heard (es : List Event) : List Text :=
  es.foldl (fun known e => if e.file ∈ known then known else known ++ [e.file]) []

theorem heard_concat (es : List Event) (e : Event) :
    heard (es ++ [e]) = if e.file ∈ heard es then heard es else heard es ++ [e.file] := by
  rw [heard, List.foldl_append]
  rfl

/-- Events of files that were heard of before tell of no new ones. -/
theorem heard_append {es more : List Event} (h : ∀ e ∈ more, e.file ∈ heard es) :
    heard (es ++ more) = heard es := by
  induction more using List.reverseRecOn with
  | nil => rw [List.append_nil]
  | append_singleton more e ih =>
      have ih := ih fun a ha => h a (List.mem_append_left _ ha)
      rw [← List.append_assoc, heard_concat, ih, if_pos (h e (by simp))]

/-- The order of events does not show in the number of diagnostics. -/
theorem sum_found_perm {es es' : List Event} (h : es.Perm es') :
    (es.map Event.found).sum = (es'.map Event.found).sum := by
  induction h with
  | nil => rfl
  | cons e _ ih => rw [List.map_cons, List.map_cons, List.sum_cons, List.sum_cons, ih]
  | swap a b es =>
      simp only [List.map_cons, List.sum_cons]
      ac_rfl
  | trans _ _ ih₁ ih₂ => rw [ih₁, ih₂]

/-- It is enough to look at the events of each file. -/
theorem endsOnce_of_files {es : List Event}
    (h : ∀ path, (es.filter (·.file = path)).Pairwise fun a _ => a.status.isFinal = false) :
    EndsOnce es := by
  rw [EndsOnce, List.pairwise_iff_forall_sublist]
  intro a b hab hfile
  have hpair := h b.file
  rw [List.pairwise_filter, List.pairwise_iff_forall_sublist] at hpair
  exact hpair hab (by simpa using hfile) (by simp)

namespace View

/-- The view after some messages. -/
def after (title : Text) (ms : List Message) : View := ms.foldl update { title }

theorem after_concat (title : Text) (ms : List Message) (m : Message) :
    after title (ms ++ [m]) = (after title ms).update m := by
  rw [after, List.foldl_append]
  rfl

/-- A message either brings news or leaves items and counters alone. -/
theorem update_cases (v : View) (m : Message) :
    (∃ e, m = .event e ∧ v.update m = v.apply e) ∨
      (m.news? = none ∧ (v.update m).items = v.items ∧ (v.update m).finished = v.finished ∧
        (v.update m).failed = v.failed ∧ (v.update m).cached = v.cached ∧
        (v.update m).diagnostics = v.diagnostics) := by
  cases m with
  | event e => exact .inl ⟨e, rfl, rfl⟩
  | tick =>
      right
      simp only [update]
      split <;> exact ⟨rfl, rfl, rfl, rfl, rfl, rfl⟩
  | resize w =>
      right
      simp only [update]
      split <;> exact ⟨rfl, rfl, rfl, rfl, rfl, rfl⟩
  | ended => exact .inr ⟨rfl, rfl, rfl, rfl, rfl, rfl⟩
  | interrupt => exact .inr ⟨rfl, rfl, rfl, rfl, rfl, rfl⟩
  | other => exact .inr ⟨rfl, rfl, rfl, rfl, rfl, rfl⟩

/-- What holds of a new view, is kept by every event and depends on items and counters only, holds
of the view after any messages. -/
theorem after_induction {P : View → List Event → Prop} {title : Text} {ms : List Message}
    (hnew : P { title } [])
    (hevent : ∀ v es e, es ++ [e] <+: ms.filterMap Message.news? → P v es →
      P (v.apply e) (es ++ [e]))
    (hsame : ∀ v v' es, v'.items = v.items → v'.finished = v.finished → v'.failed = v.failed →
      v'.cached = v.cached → v'.diagnostics = v.diagnostics → P v es → P v' es) :
    P (after title ms) (ms.filterMap Message.news?) := by
  induction ms using List.reverseRecOn with
  | nil => exact hnew
  | append_singleton ms m ih =>
      rw [after_concat, List.filterMap_append]
      have ih := ih fun v es e hes hv => hevent v es e
        (hes.trans (by rw [List.filterMap_append]; exact List.prefix_append _ _)) hv
      rcases update_cases (after title ms) m with ⟨e, rfl, hupdate⟩ | ⟨hnone, hrest⟩
      · rw [hupdate]
        exact hevent _ _ _ (by rw [List.filterMap_append]; exact List.prefix_rfl) ih
      · obtain ⟨hitems, hfinished, hfailed, hcached, hdiagnostics⟩ := hrest
        rw [List.filterMap_cons_none hnone, List.filterMap_nil, List.append_nil]
        exact hsame _ _ _ hitems hfinished hfailed hcached hdiagnostics ih

/-! ## Counting events -/

/-- The counters are those of the events. -/
structure Tallied (v : View) (es : List Event) : Prop where
  finished : v.finished = es.countP (·.status.isFinal)
  failed : v.failed = es.countP (·.status = .error)
  cached : v.cached = es.countP (·.status = .cached)
  diagnostics : v.diagnostics = (es.map Event.found).sum

theorem tallied_apply {v : View} {es : List Event} {e : Event} (hfile : e.file ≠ [])
    (h : Tallied v es) : Tallied (v.apply e) (es ++ [e]) := by
  obtain ⟨hfinished, hfailed, hcached, hdiagnostics⟩ := h
  constructor
  · simp only [apply, hfile, if_false, List.countP_append, List.countP_singleton, hfinished]
    split <;> rfl
  · simp only [apply, hfile, if_false, List.countP_append, List.countP_singleton, hfailed]
    by_cases hstatus : e.status = .error <;> simp [hstatus]
  · simp only [apply, hfile, if_false, List.countP_append, List.countP_singleton, hcached]
    by_cases hstatus : e.status = .cached <;> simp [hstatus]
  · simp only [apply, hfile, if_false, List.map_append, List.sum_append, List.map_cons,
      List.map_nil, List.sum_cons, List.sum_nil, Int64.add_zero, hdiagnostics, Event.found]
    split <;> simp

theorem tallied_after {title : Text} {ms : List Message}
    (hfiles : ∀ e ∈ ms.filterMap Message.news?, e.file ≠ []) :
    Tallied (after title ms) (ms.filterMap Message.news?) := by
  refine after_induction ⟨rfl, rfl, rfl, rfl⟩ ?_ ?_
  · intro v es e hes hv
    exact tallied_apply (hfiles e (hes.subset (by simp))) hv
  · rintro v v' es _ hfinished hfailed hcached hdiagnostics ⟨h₁, h₂, h₃, h₄⟩
    exact ⟨hfinished.trans h₁, hfailed.trans h₂, hcached.trans h₃, hdiagnostics.trans h₄⟩

/-! ## Counting items -/

/-- An event changes the item of its file, or adds one when there is none. -/
theorem updateItem_cases (path : Text) (status : Status) (found : Option Int64)
    (items : List Item) :
    (path ∉ items.map (·.path) ∧
      updateItem path status found items = items ++ [⟨path, status, found.getD 0⟩]) ∨
    ∃ before i rest, items = before ++ i :: rest ∧ i.path = path ∧
      updateItem path status found items =
        before ++ ⟨path, status, found.getD i.diagnostics⟩ :: rest := by
  induction items with
  | nil => exact .inl ⟨by simp, rfl⟩
  | cons j items ih =>
      by_cases hj : j.path = path
      · exact .inr ⟨[], j, items, rfl, hj, by simp [updateItem, hj]⟩
      · rcases ih with ⟨hnot, heq⟩ | ⟨before, i, rest, hitems, hi, heq⟩
        · refine .inl ⟨?_, by simp [updateItem, hj, heq]⟩
          rw [List.map_cons, List.mem_cons, not_or]
          exact ⟨Ne.symm hj, hnot⟩
        · exact .inr ⟨j :: before, i, rest, by rw [hitems]; rfl, hi, by simp [updateItem, hj, heq]⟩

/-- The counters are what the items add up to. Every item shows the status of an event of its file,
and diagnostics only once the review has ended. -/
structure Balanced (v : View) (es : List Event) : Prop where
  shown : ∀ i ∈ v.items, ∃ e ∈ es, e.file = i.path ∧ e.status = i.status
  pending : ∀ i ∈ v.items, i.status.isFinal = false → i.diagnostics = 0
  finished : v.finished = v.items.countP (·.status.isFinal)
  failed : v.failed = v.items.countP (·.status = .error)
  cached : v.cached = v.items.countP (·.status = .cached)
  diagnostics : v.diagnostics = (v.items.map (·.diagnostics)).sum

/-- The item that an event leaves stands in the place of an item that was not counted, or of none. -/
theorem items_apply {v : View} {es : List Event} {e : Event} (hfile : e.file ≠ [])
    (hopen : ∀ a ∈ es, a.file = e.file → a.status.isFinal = false) (h : Balanced v es) :
    ∃ before old rest, v.items = before ++ old ++ rest ∧
      (∀ i ∈ old, i.status.isFinal = false ∧ i.diagnostics = 0) ∧
      (v.apply e).items = before ++ ⟨e.file, e.status, e.found⟩ :: rest := by
  simp only [apply, hfile, if_false]
  rcases updateItem_cases e.file e.status
    (if e.status = .done || e.status = .cached then some e.diagnostics else none) v.items
    with ⟨_, heq⟩ | ⟨before, i, rest, hitems, hi, heq⟩
  · refine ⟨v.items, [], [], by simp, nofun, heq.trans ?_⟩
    rw [Event.found]
    split <;> rfl
  · have hmem : i ∈ v.items := by simp [hitems]
    obtain ⟨a, ha, hafile, hstatus⟩ := h.shown i hmem
    have hpending : i.status.isFinal = false := hstatus ▸ hopen a ha (hafile.trans hi)
    have hzero := h.pending i hmem hpending
    refine ⟨before, [i], rest, by simp [hitems], ?_, heq.trans ?_⟩
    · intro j hj
      rw [List.mem_singleton.mp hj]
      exact ⟨hpending, hzero⟩
    · rw [Event.found, hzero]
      split <;> rfl

/-- Items of a final status become one more when an event has that status, and else stay as many. -/
theorem countP_apply {before old rest : List Item} {e : Event} (final : Status → Bool)
    (hfinal : ∀ s, final s = true → s.isFinal = true)
    (hold : ∀ i ∈ old, i.status.isFinal = false ∧ i.diagnostics = 0) :
    (before ++ ⟨e.file, e.status, e.found⟩ :: rest).countP (final ·.status) =
      (before ++ old ++ rest).countP (final ·.status) + if final e.status then 1 else 0 := by
  have hzero : old.countP (final ·.status) = 0 := by
    rw [List.countP_eq_zero]
    intro i hi hcounted
    have hended := hfinal _ hcounted
    rw [(hold i hi).1] at hended
    cases hended
  simp only [List.countP_append, List.countP_cons, hzero]
  omega

theorem balanced_apply {v : View} {es : List Event} {e : Event}
    (hopen : ∀ a ∈ es, a.file = e.file → a.status.isFinal = false) (h : Balanced v es) :
    Balanced (v.apply e) (es ++ [e]) := by
  have hshown : ∀ i ∈ v.items, ∃ a ∈ es ++ [e], a.file = i.path ∧ a.status = i.status := by
    intro i hi
    obtain ⟨a, ha, hfile, hstatus⟩ := h.shown i hi
    exact ⟨a, List.mem_append_left _ ha, hfile, hstatus⟩
  by_cases hfile : e.file = []
  · rw [apply, if_pos hfile]
    exact { h with shown := hshown }
  obtain ⟨before, old, rest, hitems, hold, heq⟩ := items_apply hfile hopen h
  have hmem : ∀ i ∈ (v.apply e).items, i ∈ v.items ∨ i = ⟨e.file, e.status, e.found⟩ := by
    intro i hi
    rw [heq] at hi
    rw [hitems]
    simp only [List.mem_append, List.mem_cons] at hi ⊢
    tauto
  constructor
  case shown =>
    intro i hi
    rcases hmem i hi with hi | rfl
    · exact hshown i hi
    · exact ⟨e, by simp, rfl, rfl⟩
  case pending =>
    intro i hi hpending
    rcases hmem i hi with hi | rfl
    · exact h.pending i hi hpending
    · change e.status.isFinal = false at hpending
      cases hstatus : e.status <;> simp_all [Event.found, Status.isFinal]
  case finished =>
    rw [heq, countP_apply Status.isFinal (fun _ hs => hs) hold, ← hitems, ← h.finished]
    simp only [apply, hfile, if_false]
    split <;> rfl
  case failed =>
    rw [heq, countP_apply (· = .error) (by rintro _ hs; simp_all [Status.isFinal]) hold,
      ← hitems, ← h.failed]
    simp only [apply, hfile, if_false, decide_eq_true_eq]
    split <;> rfl
  case cached =>
    rw [heq, countP_apply (· = .cached) (by rintro _ hs; simp_all [Status.isFinal]) hold,
      ← hitems, ← h.cached]
    simp only [apply, hfile, if_false, decide_eq_true_eq]
    split <;> rfl
  case diagnostics =>
    have hzero : (old.map (·.diagnostics)).sum = 0 := by
      clear heq hitems hmem
      induction old with
      | nil => rfl
      | cons i old ih =>
          rw [List.map_cons, List.sum_cons, (hold i (by simp)).2,
            ih fun j hj => hold j (List.mem_cons_of_mem i hj), Int64.add_zero]
    have hsum : (v.apply e).diagnostics = v.diagnostics + e.found := by
      simp only [apply, hfile, if_false, Event.found]
      split <;> simp
    rw [hsum, h.diagnostics, heq, hitems]
    simp only [List.map_append, List.map_cons, List.sum_append, List.sum_cons, hzero]
    simp only [Int64.add_zero]
    ac_rfl

theorem balanced_after {title : Text} {ms : List Message}
    (hends : EndsOnce (ms.filterMap Message.news?)) :
    Balanced (after title ms) (ms.filterMap Message.news?) := by
  refine after_induction ⟨nofun, nofun, rfl, rfl, rfl, rfl⟩ ?_ ?_
  · intro v es e hes hv
    refine balanced_apply ?_ hv
    intro a ha hfile
    have hpairs := hends.sublist hes.sublist
    exact (List.pairwise_append.mp hpairs).2.2 a ha e (by simp) hfile
  · rintro v v' es hitems hfinished hfailed hcached hdiagnostics ⟨h₁, h₂, h₃, h₄, h₅, h₆⟩
    rw [← hitems] at h₁ h₂ h₃ h₄ h₅ h₆
    exact ⟨h₁, h₂, hfinished.trans h₃, hfailed.trans h₄, hcached.trans h₅, hdiagnostics.trans h₆⟩

/-- No item is counted twice, so no more are finished than there are, and what was cached or has
failed is finished. -/
theorem Balanced.bounds {v : View} {es : List Event} (h : Balanced v es) :
    v.finished ≤ v.items.length ∧ v.cached + v.failed ≤ v.finished := by
  rw [h.finished, h.cached, h.failed]
  refine ⟨List.countP_le_length, ?_⟩
  induction v.items with
  | nil => simp
  | cons i items ih =>
      have hi : (if i.status = .cached then 1 else 0) + (if i.status = .error then 1 else 0) ≤
          if i.status.isFinal then 1 else 0 := by
        cases i.status <;> simp [Status.isFinal]
      simp only [List.countP_cons, decide_eq_true_eq]
      omega

/-! ## Paths of items -/

theorem paths_apply {v : View} {e : Event} (hfile : e.file ≠ []) :
    (v.apply e).items.map (·.path) =
      if e.file ∈ v.items.map (·.path) then v.items.map (·.path)
      else v.items.map (·.path) ++ [e.file] := by
  simp only [apply, hfile, if_false]
  rcases updateItem_cases e.file e.status
    (if e.status = .done || e.status = .cached then some e.diagnostics else none) v.items
    with ⟨hnot, heq⟩ | ⟨before, i, rest, hitems, hi, heq⟩
  · rw [heq, if_neg hnot, List.map_append]
    rfl
  · have hmem : e.file ∈ v.items.map (·.path) := by simp [hitems, hi]
    rw [if_pos hmem, heq, hitems]
    simp [hi]

theorem paths_after {title : Text} {ms : List Message}
    (hfiles : ∀ e ∈ ms.filterMap Message.news?, e.file ≠ []) :
    (after title ms).items.map (·.path) = heard (ms.filterMap Message.news?) := by
  refine after_induction (P := fun v es => v.items.map (·.path) = heard es) rfl ?_ ?_
  · intro v es e hes hv
    rw [paths_apply (hfiles e (hes.subset (by simp))), hv, heard_concat]
  · intro v v' es hitems _ _ _ _ hv
    rw [hitems, hv]

end View

end LineReview.Progress
