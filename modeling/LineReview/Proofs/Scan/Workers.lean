import LineReview.Scan.Worker
import LineReview.Proofs.Review.Fingerprint
import LineReview.Proofs.Review.Numbered

/-!
# What one step of a worker does

A step changes files only when it stores an entry, and it stores the
diagnostics that the worker has found (`step_files`). What a worker knows at
each stage `Agrees` with a review of its file alone; a step keeps that, provided
the file has not changed and an answer of the cache is the right one
(`agrees_step`).

Contexts are touched in two places only. A worker that has not begun turns back
when it finds its group over, and never for another reason
(`hasTurnedBack_step`); and the group hears what a worker comes back with
(`step_group`).
-/

namespace LineReview

/-! ## Keys -/

namespace ScanOptions

theorem fingerprint_of_cache {o : ScanOptions} {c : Cache} (hcache : o.cache = some c) :
    o.fingerprint = o.reviewer.fingerprint o.version := by
  rw [fingerprint, hcache]
  rfl

/-- Results have a key when there is a cache and the rules have a name. -/
theorem keyed_eq_some_iff {o : ScanOptions} {f : SourceFile} {c : Cache} {key : Text} :
    o.keyed f = some (c, key) ↔
      o.cache = some c ∧ o.reviewer.classifier = none ∧
        key = Cache.key (o.reviewer.options.fingerprint o.version) f.hash := by
  unfold keyed
  cases hcache : o.cache with
  | none => simp
  | some d =>
      rw [fingerprint_of_cache hcache, Reviewer.fingerprint]
      dsimp only
      cases hclassifier : o.reviewer.classifier with
      | some classify => simp
      | none =>
          have hne := ReviewOptions.fingerprint_ne_nil o.version o.reviewer.options
          simp [hne, eq_comm]

theorem limit_pos (o : ScanOptions) : 0 < o.limit := by
  unfold limit
  split
  · exact Nat.lt_of_lt_of_le Nat.one_pos (Nat.le_max_right _ _)
  · rename_i hpos
    have hpos : 0 < o.jobs.toInt := Int64.lt_iff_toInt_lt.mp (Int64.not_le.mp hpos)
    omega

theorem keyed_eq_none {o : ScanOptions} (hcache : o.cache = none) (f : SourceFile) :
    o.keyed f = none := by
  rw [keyed, hcache]

end ScanOptions

namespace Reviewer

/-- A review ends well under any path, or under none. -/
theorem source_eq_ok_iff {r : Reviewer} {path : Text} {f : SourceFile} {ds : List Diagnostic} :
    r.source path f = some (.ok ds) ↔
      Review.outcome? r.widths r.options r.classify f = some (.ok ds) := by
  rw [source]
  cases Review.outcome? r.widths r.options r.classify f with
  | none => simp
  | some x => cases x <;> simp [Except.mapError]

/-- The review of a short file comes to an end. -/
theorem source_ne_none {r : Reviewer} {path : Text} {f : SourceFile}
    (hshort : f.content.length < 2 ^ 32 - 1) : r.source path f ≠ none := by
  rw [source, Ne, Option.map_eq_none_iff, ← Option.not_isSome_iff_eq_none]
  exact not_not_intro (Review.isSome_outcome? hshort)

theorem file_of_load {r : Reviewer} {fs : FileSystem} {path : Text} {f : SourceFile}
    (h : load fs path = .ok f) : r.file fs path = r.source path f := by
  rw [file, h]

theorem file_of_load_error {r : Reviewer} {fs : FileSystem} {path : Text} {e : ReviewError}
    (h : load fs path = .error e) : r.file fs path = some (.error e) := by
  rw [file, h]

end Reviewer

namespace Scan.Worker

/-! ## Files -/

/-- The diagnostics as an entry holds them. -/
def stored (w : Worker) : Option (List Diagnostic) :=
  if w.diagnostics = [] then none else some w.diagnostics

theorem getD_stored (w : Worker) : w.stored.getD [] = w.diagnostics := by
  unfold stored
  split
  case isTrue h => exact h.symm
  case isFalse => rfl

/-- The cache is asked, and its answer settles the file if there is one. -/
theorem lookUp_cases (o : ScanOptions) (s : Shared) (w : Worker) (f : SourceFile) :
    (lookUp o s w f).1.files = s.files ∧
      ((lookUp o s w f).2 = { w with stage := .missed f } ∨
        ∃ c key e, o.keyed f = some (c, key) ∧ c.get s.files key = .ok (some e) ∧
          (lookUp o s w f).2 = { w with
            stage := .settled, diagnostics := e.diagnostics.getD [], isCached := true }) := by
  unfold lookUp
  cases hkeyed : o.keyed f with
  | none => exact ⟨rfl, .inl rfl⟩
  | some ck =>
      obtain ⟨c, key⟩ := ck
      dsimp only
      cases hget : c.get s.files key with
      | error e => exact ⟨rfl, .inl rfl⟩
      | ok found =>
          cases found with
          | none => exact ⟨rfl, .inl rfl⟩
          | some e => exact ⟨rfl, .inr ⟨c, key, e, rfl, hget, rfl⟩⟩

/-- The diagnostics are stored, or the files stay as they are. -/
theorem store_cases (o : ScanOptions) (s : Shared) (w : Worker) (f : SourceFile) :
    (store o s w f).2 = { w with stage := .settled } ∧
      ((store o s w f).1.files = s.files ∨
        ∃ c key, o.keyed f = some (c, key) ∧
          c.put s.files key { path := w.path, diagnostics := w.stored } =
            .ok (store o s w f).1.files) := by
  unfold store
  cases hkeyed : o.keyed f with
  | none => exact ⟨rfl, .inl rfl⟩
  | some ck =>
      obtain ⟨c, key⟩ := ck
      have hstored : (if w.diagnostics = [] then none else some w.diagnostics) = w.stored := rfl
      dsimp only
      rw [hstored]
      cases hput : c.put s.files key { path := w.path, diagnostics := w.stored } with
      | error e => exact ⟨rfl, .inl rfl⟩
      | ok files => exact ⟨rfl, .inr ⟨c, key, rfl, hput⟩⟩

theorem context_lookUp (o : ScanOptions) (s : Shared) (w : Worker) (f : SourceFile) :
    (lookUp o s w f).1.context = s.context ∧ (lookUp o s w f).1.group = s.group := by
  unfold lookUp
  split
  · exact ⟨rfl, rfl⟩
  · split <;> exact ⟨rfl, rfl⟩

theorem context_store (o : ScanOptions) (s : Shared) (w : Worker) (f : SourceFile) :
    (store o s w f).1.context = s.context ∧ (store o s w f).1.group = s.group := by
  unfold store
  split
  · exact ⟨rfl, rfl⟩
  · dsimp only
    split <;> exact ⟨rfl, rfl⟩

/-- A step changes files only by storing an entry. -/
theorem step_files (o : ScanOptions) (s : Shared) (w : Worker) :
    (step o s w).1.files = s.files ∨
      ∃ f c key, w.stage = .storing f ∧ o.keyed f = some (c, key) ∧
        c.put s.files key { path := w.path, diagnostics := w.stored } =
          .ok (step o s w).1.files := by
  unfold step
  cases hstage : w.stage with
  | waiting => exact .inl rfl
  | admitted => exact .inl rfl
  | opened => exact .inl rfl
  | begun =>
      dsimp only
      split <;> exact .inl rfl
  | loaded f =>
      dsimp only
      split <;> exact .inl rfl
  | kept f => exact .inl (lookUp_cases o s w f).1
  | missed f =>
      dsimp only
      split <;> exact .inl rfl
  | reporting f rest => cases rest <;> exact .inl rfl
  | storing f =>
      rcases (store_cases o s w f).2 with hsame | ⟨c, key, hkeyed, hput⟩
      · exact .inl hsame
      · exact .inr ⟨f, c, key, rfl, hkeyed, hput⟩
  | settled =>
      dsimp only
      split <;> exact .inl rfl
  | recorded => exact .inl rfl
  | closing => exact .inl rfl
  | returning error? => exact .inl rfl
  | finished => exact .inl rfl
  | dropped => exact .inl rfl

/-! ## What stays the same -/

theorem step_context (o : ScanOptions) (s : Shared) (w : Worker) :
    (step o s w).1.context = s.context := by
  unfold step
  cases hstage : w.stage with
  | begun =>
      dsimp only
      split <;> rfl
  | loaded f =>
      dsimp only
      split <;> rfl
  | kept f => exact (context_lookUp o s w f).1
  | missed f =>
      dsimp only
      split <;> rfl
  | reporting f rest => cases rest <;> rfl
  | storing f => exact (context_store o s w f).1
  | settled =>
      dsimp only
      split <;> rfl
  | _ => rfl

/-- The group only hears of a worker when it comes back. -/
theorem step_group (o : ScanOptions) (s : Shared) (w : Worker) :
    (step o s w).1.group = s.group ∨
      ∃ error?, w.stage = .returning error? ∧ (step o s w).1.group = s.group.hear error? := by
  unfold step
  cases hstage : w.stage with
  | begun =>
      dsimp only
      split <;> exact .inl rfl
  | loaded f =>
      dsimp only
      split <;> exact .inl rfl
  | kept f => exact .inl (context_lookUp o s w f).2
  | missed f =>
      dsimp only
      split <;> exact .inl rfl
  | reporting f rest => cases rest <;> exact .inl rfl
  | storing f => exact .inl (context_store o s w f).2
  | settled =>
      dsimp only
      split <;> exact .inl rfl
  | returning error? => exact .inr ⟨error?, rfl, rfl⟩
  | _ => exact .inl rfl

theorem step_path (o : ScanOptions) (s : Shared) (w : Worker) :
    (step o s w).2.path = w.path := by
  unfold step
  cases hstage : w.stage with
  | begun =>
      dsimp only
      split <;> rfl
  | kept f =>
      dsimp only
      rcases (lookUp_cases o s w f).2 with h | ⟨c, key, e, _, _, h⟩ <;> rw [h]
  | missed f =>
      dsimp only
      split <;> rfl
  | reporting f rest => cases rest <;> rfl
  | storing f =>
      dsimp only
      rw [(store_cases o s w f).1]
  | _ => rfl

/-- The worker has found its group over and leaves its file alone. -/
def hasTurnedBack (w : Worker) : Bool :=
  match w.stage with
  | .returning (some _) | .dropped => true
  | _ => false

/-- A worker turns back when it finds its group over before it begins, and at no other point. -/
theorem hasTurnedBack_step {o : ScanOptions} {s : Shared} {w : Worker}
    (h : (step o s w).2.hasTurnedBack = true) :
    w.hasTurnedBack = true ∨ w.stage = .waiting ∧ s.group.context.isSome = true := by
  unfold step at h
  cases hstage : w.stage with
  | waiting =>
      refine .inr ⟨rfl, ?_⟩
      cases hcontext : s.group.context with
      | none => simp [hstage, enter, hcontext, hasTurnedBack] at h
      | some e => rfl
  | begun =>
      simp only [hstage] at h
      split at h <;> cases h
  | kept f =>
      simp only [hstage] at h
      rcases (lookUp_cases o s w f).2 with hmissed | ⟨c, key, e, _, _, hhit⟩
      · rw [hmissed] at h
        cases h
      · rw [hhit] at h
        cases h
  | missed f =>
      simp only [hstage] at h
      split at h
      · cases h
      · cases h
      · exact .inl h
  | reporting f rest =>
      simp only [hstage] at h
      cases rest <;> cases h
  | storing f =>
      simp only [hstage] at h
      rw [(store_cases o s w f).1] at h
      cases h
  | returning error? =>
      simp only [hstage] at h
      cases error? with
      | none => cases h
      | some e => exact .inl (by rw [hasTurnedBack, hstage])
  | finished =>
      simp only [hstage] at h
      exact .inl h
  | dropped => exact .inl (by rw [hasTurnedBack, hstage])
  | _ =>
      simp only [hstage] at h
      cases h

/-- A worker that is over does nothing more. -/
theorem step_of_isOver {o : ScanOptions} {s : Shared} {w : Worker}
    (h : w.stage.isOver = true) : step o s w = (s, w) := by
  unfold step
  cases hstage : w.stage with
  | finished => rfl
  | dropped => rfl
  | _ =>
      rw [hstage] at h
      cases h

/-! ## What a worker knows -/

/-- What a worker has found: the diagnostics, or the reason why there are none. -/
def answer (w : Worker) : Except ReviewError (List Diagnostic) :=
  match w.failure with
  | some e => .error e
  | none => .ok w.diagnostics

/-- At every stage a worker knows what a review of its file alone knows at that point. -/
def Agrees (r : Reviewer) (fs : FileSystem) (w : Worker) : Prop :=
  match w.stage with
  | .waiting | .admitted | .opened | .begun | .returning (some _) | .dropped => w.answer = .ok []
  | .loaded f | .kept f | .missed f => w.answer = .ok [] ∧ Reviewer.load fs w.path = .ok f
  | .reporting f _ | .storing f =>
    w.answer = .ok w.diagnostics ∧ Reviewer.load fs w.path = .ok f ∧
      r.source w.path f = some (.ok w.diagnostics)
  | .settled | .recorded | .closing | .returning none | .finished =>
    r.file fs w.path = some w.answer

theorem answer_eq_ok_iff {w : Worker} {ds : List Diagnostic} :
    w.answer = .ok ds ↔ w.failure = none ∧ w.diagnostics = ds := by
  unfold answer
  cases w.failure <;> simp

theorem agrees_lookUp {o : ScanOptions} {s : Shared} {w : Worker} {fs : FileSystem}
    {f : SourceFile} (hclean : w.answer = .ok []) (hload : Reviewer.load fs w.path = .ok f)
    (hright : ∀ c key e, o.keyed f = some (c, key) → c.get s.files key = .ok (some e) →
      o.reviewer.source w.path f = some (.ok (e.diagnostics.getD []))) :
    Agrees o.reviewer fs (lookUp o s w f).2 := by
  rcases (lookUp_cases o s w f).2 with hmissed | ⟨c, key, e, hkeyed, hget, hhit⟩
  · rw [hmissed]
    exact ⟨hclean, hload⟩
  · rw [hhit]
    have hsource := hright c key e hkeyed hget
    have hnone := (answer_eq_ok_iff.mp hclean).1
    change o.reviewer.file fs w.path = some (answer _)
    rw [Reviewer.file_of_load hload, hsource]
    exact congrArg some (answer_eq_ok_iff.mpr (by exact ⟨hnone, rfl⟩)).symm

/-- A step keeps the agreement when the file is still the same and the cache, should it answer,
answers what a review would find. -/
theorem agrees_step {o : ScanOptions} {s : Shared} {w : Worker} {fs : FileSystem}
    (h : Agrees o.reviewer fs w)
    (hsteady : Reviewer.load s.files w.path = Reviewer.load fs w.path)
    (hright : ∀ f c key e, Reviewer.load fs w.path = .ok f → o.keyed f = some (c, key) →
      c.get s.files key = .ok (some e) →
      o.reviewer.source w.path f = some (.ok (e.diagnostics.getD []))) :
    Agrees o.reviewer fs (step o s w).2 := by
  have hagrees := h
  unfold Agrees at h
  unfold step
  cases hstage : w.stage with
  | waiting =>
      rw [hstage] at h
      unfold enter
      cases s.group.context <;> exact h
  | admitted | opened | loaded f | settled | recorded | closing =>
      rw [hstage] at h
      exact h
  | begun =>
      rw [hstage] at h
      dsimp only
      rw [hsteady]
      cases hload : Reviewer.load fs w.path with
      | ok f => exact ⟨h, hload⟩
      | error e => exact Reviewer.file_of_load_error hload
  | kept f =>
      rw [hstage] at h
      exact agrees_lookUp h.1 h.2 (hright f · · · h.2)
  | missed f =>
      rw [hstage] at h
      obtain ⟨hclean, hload⟩ := h
      have hnone := (answer_eq_ok_iff.mp hclean).1
      dsimp only
      cases hsource : o.reviewer.source w.path f with
      | none => exact hagrees
      | some x =>
          cases x with
          | ok ds => exact ⟨answer_eq_ok_iff.mpr ⟨hnone, rfl⟩, hload, hsource⟩
          | error e =>
              change o.reviewer.file fs w.path = some (.error e)
              rw [Reviewer.file_of_load hload, hsource]
  | reporting f rest =>
      rw [hstage] at h
      cases rest <;> exact h
  | storing f =>
      rw [hstage] at h
      obtain ⟨hanswer, hload, hsource⟩ := h
      dsimp only
      rw [(store_cases o s w f).1]
      change o.reviewer.file fs w.path = some w.answer
      rw [hanswer, Reviewer.file_of_load hload, hsource]
  | returning error? =>
      rw [hstage] at h
      cases error? <;> exact h
  | finished | dropped => exact hagrees

/-- A worker that is over and has not dropped its file has the answer of a review. -/
theorem Agrees.file_eq {r : Reviewer} {fs : FileSystem} {w : Worker} (h : Agrees r fs w)
    (hover : w.stage.isOver = true) (hkept : w.stage ≠ .dropped) :
    r.file fs w.path = some w.answer := by
  unfold Agrees at h
  cases hstage : w.stage with
  | finished =>
      rw [hstage] at h
      exact h
  | dropped => exact absurd hstage hkept
  | _ =>
      rw [hstage] at hover
      cases hover

end Scan.Worker

end LineReview
