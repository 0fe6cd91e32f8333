import LineReview.Proofs.Diagnostic.Listing
import Mathlib.Data.List.Induction

/-!
# What a bag holds

Diagnostics are added to a bag and the bag is sorted, in any order and any number of times. It
holds the first diagnostics that were offered to it, as many as its limit lets in (`HoldsFirst`).
One call keeps this (`HoldsFirst.add`, `HoldsFirst.sort`), and so does a list of calls
(`holdsFirst_after`). Sorting moves the items and never changes how many there are, so the answer to
an offer depends on the number of offers before it alone (`answers_eq`).

A sorted bag is in the order of ranks, and items of one rank stay in their order
(`calls_keep_first`).
-/

namespace LineReview

/-- The rank of a diagnostic in a sorted bag: by line, then by column, then by severity with the
highest in front, then by code. -/
def Diagnostic.rank (d : Diagnostic) : ℕ ×ₗ ℕ ×ₗ ℕᵒᵈ ×ₗ ℕ :=
  toLex (d.line.toNat, toLex (d.col.toNat,
    toLex (OrderDual.toDual d.severity.level.toNat, d.code.number.toNat)))

namespace Bag

/-! ## Order -/

theorem precedes_iff (d e : Diagnostic) : precedes d e = true ↔ d.rank < e.rank := by
  obtain ⟨⟨s⟩, ⟨c⟩, line, col, _⟩ := d
  obtain ⟨⟨s'⟩, ⟨c'⟩, line', col', _⟩ := e
  rw [Diagnostic.rank, Diagnostic.rank, Prod.Lex.toLex_lt_toLex, Prod.Lex.toLex_lt_toLex,
    Prod.Lex.toLex_lt_toLex, OrderDual.toDual_lt_toDual, OrderDual.toDual_inj,
    ← UInt32.lt_iff_toNat_lt, ← UInt32.lt_iff_toNat_lt, ← UInt8.lt_iff_toNat_lt,
    ← UInt16.lt_iff_toNat_lt, UInt32.toNat_inj, UInt32.toNat_inj, UInt8.toNat_inj, precedes]
  by_cases hline : line = line'
  · by_cases hcol : col = col'
    · by_cases hseverity : s = s'
      · simp [hline, hcol, hseverity]
      · simp [hline, hcol, hseverity]
    · simp [hline, hcol]
  · simp [hline]

theorem comparesBy_rank : ComparesBy Diagnostic.rank fun d e => !precedes e d := by
  intro d e
  rw [Bool.not_eq_true', ← not_lt, ← precedes_iff, Bool.not_eq_true]

theorem sort_sort (b : Bag) : b.sort.sort = b.sort := by
  have hsorted := List.pairwise_mergeSort comparesBy_rank.trans comparesBy_rank.total b.items
  have hitems : b.sort.sort.items = b.sort.items := List.mergeSort_of_pairwise hsorted
  exact congrArg (Bag.mk b.limit) hitems

/-! ## One call -/

/-- How many of the first `k` diagnostics a bag with the limit takes in. -/
def kept (limit : Int64) (k : Nat) : Nat := if limit ≤ 0 then k else min limit.toInt.toNat k

theorem lt_kept_iff {limit : Int64} {i k : Nat} :
    i < kept limit k ↔ i < k ∧ (limit ≤ 0 ∨ i < limit.toInt.toNat) := by
  unfold kept
  split
  · rename_i hnone
    simp [hnone]
  · rename_i hlimit
    simp [hlimit, and_comm]

theorem kept_le (limit : Int64) (k : Nat) : kept limit k ≤ k := by
  unfold kept
  split
  · exact Nat.le_refl k
  · exact Nat.min_le_right _ _

/-- As long as one is taken in, all before it were. -/
theorem kept_of_lt {limit : Int64} {k : Nat} (h : k < kept limit (k + 1)) :
    kept limit k = k ∧ kept limit (k + 1) = k + 1 := by
  unfold kept at h ⊢
  split
  · exact ⟨rfl, rfl⟩
  · rename_i hlimit
    rw [if_neg hlimit] at h
    omega

theorem kept_succ_of_not_lt {limit : Int64} {k : Nat} (h : ¬ k < kept limit (k + 1)) :
    kept limit (k + 1) = kept limit k := by
  unfold kept at h ⊢
  split
  · rename_i hnone
    rw [if_pos hnone] at h
    omega
  · rename_i hlimit
    rw [if_neg hlimit] at h
    omega

/-- The bag has the limit and holds the first of the diagnostics, in any order. -/
structure HoldsFirst (limit : Int64) (ds : List Diagnostic) (b : Bag) : Prop where
  limit_eq : b.limit = limit
  perm : b.items.Perm (ds.take (kept limit ds.length))

theorem holdsFirst_empty (limit : Int64) : HoldsFirst limit [] (empty limit) :=
  ⟨rfl, by rw [List.take_nil]; exact .nil⟩

namespace HoldsFirst

variable {limit : Int64} {ds : List Diagnostic} {b : Bag}

theorem length_items (h : HoldsFirst limit ds b) : b.items.length = kept limit ds.length := by
  rw [h.perm.length_eq, List.length_take, Nat.min_eq_left (kept_le limit ds.length)]

/-- There is room exactly when the next diagnostic is among those that are kept. -/
theorem hasRoom_iff (h : HoldsFirst limit ds b) :
    b.hasRoom = true ↔ ds.length < kept limit (ds.length + 1) := by
  rw [hasRoom, Bool.or_eq_true, decide_eq_true_eq, decide_eq_true_eq, h.limit_eq, h.length_items,
    lt_kept_iff]
  by_cases hnone : limit ≤ 0
  · simp [hnone]
  · rw [kept, if_neg hnone]
    simp [hnone]

theorem add (h : HoldsFirst limit ds b) (d : Diagnostic) :
    HoldsFirst limit (ds ++ [d]) (b.add d) := by
  have hperm := h.perm
  unfold Bag.add
  split
  · rename_i hroom
    obtain ⟨hbefore, hnow⟩ := kept_of_lt (h.hasRoom_iff.mp hroom)
    refine ⟨h.limit_eq, ?_⟩
    rw [hbefore, List.take_length] at hperm
    rw [List.length_append, List.length_singleton, hnow,
      List.take_of_length_le (by rw [List.length_append, List.length_singleton])]
    exact hperm.append_right [d]
  · rename_i hfull
    have hsame := kept_succ_of_not_lt (mt h.hasRoom_iff.mpr hfull)
    refine ⟨h.limit_eq, ?_⟩
    rw [List.length_append, List.length_singleton, hsame,
      List.take_append_of_le_length (kept_le limit ds.length)]
    exact hperm

theorem sort (h : HoldsFirst limit ds b) : HoldsFirst limit ds b.sort :=
  ⟨h.limit_eq, (List.mergeSort_perm b.items _).trans h.perm⟩

end HoldsFirst

/-! ## A list of calls -/

/-- The diagnostic that a call offers. -/
def Call.offered? : Call → Option Diagnostic
  | .add d => some d
  | .sort => none

/-- The diagnostics that the calls offer, in order. -/
def offered (calls : List Call) : List Diagnostic := calls.filterMap (·.offered?)

/-- The bag after a list of calls. -/
def after (b : Bag) (calls : List Call) : Bag := calls.foldl (fun b c => (b.receive c).2) b

/-- What is answered to the offers among them. -/
def answers : Bag → List Call → List Bool
  | _, [] => []
  | b, c :: calls => (b.receive c).1.toList ++ answers (b.receive c).2 calls

theorem after_concat (b : Bag) (calls : List Call) (c : Call) :
    b.after (calls ++ [c]) = ((b.after calls).receive c).2 := by
  rw [after, List.foldl_append]
  rfl

theorem answers_concat (b : Bag) (calls : List Call) (c : Call) :
    b.answers (calls ++ [c]) = b.answers calls ++ ((b.after calls).receive c).1.toList := by
  induction calls generalizing b with
  | nil => rw [List.nil_append, answers, answers, answers, List.append_nil]; rfl
  | cons c' calls ih =>
      rw [List.cons_append, answers, ih, answers, List.append_assoc]
      rfl

theorem offered_concat (calls : List Call) (c : Call) :
    offered (calls ++ [c]) = offered calls ++ c.offered?.toList := by
  rw [offered, List.filterMap_append, ← offered]
  cases c <;> rfl

theorem holdsFirst_after (limit : Int64) (calls : List Call) :
    HoldsFirst limit (offered calls) ((empty limit).after calls) := by
  induction calls using List.reverseRecOn with
  | nil => exact holdsFirst_empty limit
  | append_singleton calls c ih =>
      rw [after_concat, offered_concat]
      cases c with
      | add d => exact ih.add d
      | sort =>
          rw [Call.offered?, Option.toList_none, List.append_nil]
          exact ih.sort

/-- The offers that are taken come before all that are refused, and how many of them there are is
known from the limit. -/
theorem answers_eq (limit : Int64) (calls : List Call) :
    (empty limit).answers calls = (List.range (offered calls).length).map
      fun i => decide (i < kept limit (offered calls).length) := by
  induction calls using List.reverseRecOn with
  | nil => rfl
  | append_singleton calls c ih =>
      rw [answers_concat, offered_concat, ih]
      cases c with
      | sort => simp [receive, Call.offered?]
      | add d =>
          have hroom : ((empty limit).after calls).hasRoom =
              decide ((offered calls).length < kept limit ((offered calls).length + 1)) := by
            rw [Bool.eq_iff_iff, decide_eq_true_eq]
            exact (holdsFirst_after limit calls).hasRoom_iff
          rw [receive, Call.offered?, Option.toList_some, Option.toList_some, List.length_append,
            List.length_singleton, List.range_succ, List.map_append, List.map_singleton, hroom]
          congr 1
          -- a later offer does not change which of the earlier ones were kept
          refine List.map_congr_left ?_
          intro i hi
          rw [List.mem_range] at hi
          simp [lt_kept_iff, hi, Nat.lt_succ_of_lt hi]

theorem receive_of_refused {b : Bag} {d : Diagnostic} (h : (b.receive (.add d)).1 = some false) :
    (b.receive (.add d)).2 = b := by
  have hfull : b.hasRoom = false := Option.some.inj h
  rw [receive, Bag.add, hfull]
  rfl

/-- Whatever calls are made on a new bag, and in whatever order. Its items are the first diagnostics
that were offered, as many as the limit lets in. An offer is answered with yes exactly when its
diagnostic is one of these, and otherwise nothing changes. After a sort the items are ordered by
their ranks, those of one rank stand as they stood before, and another sort changes nothing. -/
theorem calls_keep_first (limit : Int64) (calls : List Call) :
    let b := (empty limit).after calls
    let ds := offered calls
    b.items.Perm (ds.take (kept limit ds.length)) ∧
    (empty limit).answers calls =
      (List.range ds.length).map (fun i => decide (i < kept limit ds.length)) ∧
    (∀ d, (b.receive (.add d)).1 = some false → (b.receive (.add d)).2 = b) ∧
    let sorted := (b.receive .sort).2
    sorted.items.Pairwise (fun d e => d.rank ≤ e.rank) ∧
    (∀ r, sorted.items.filter (·.rank = r) = b.items.filter (·.rank = r)) ∧
    (sorted.receive .sort).2 = sorted := by
  intro b ds
  refine ⟨(holdsFirst_after limit calls).perm, answers_eq limit calls, ?_, ?_, ?_, ?_⟩
  · intro d hrefused
    exact receive_of_refused hrefused
  · exact comparesBy_rank.pairwise_sort b.items
  · intro r
    exact comparesBy_rank.filter_sort b.items r
  · exact sort_sort b

/-- A sort between the offers, and one offer too many. Of two diagnostics at one place the error
comes before the warning, though it was offered later. -/
theorem calls_keep_first_full :
    let below : Diagnostic := ⟨.error, .general, 5, 1, bytes "b"⟩
    let mild : Diagnostic := ⟨.warning, .general, 2, 4, bytes "a"⟩
    let grave : Diagnostic := ⟨.error, .className, 2, 4, bytes "c"⟩
    let late : Diagnostic := ⟨.error, .general, 1, 1, bytes "d"⟩
    let b := (empty 3).after [.add below, .add mild, .sort, .add grave]
    b.items = [mild, below, grave] ∧ b.items.Perm [below, mild, grave] ∧
    (b.receive (.add late)).1 = some false ∧ (b.receive (.add late)).2 = b ∧
    (b.receive .sort).2.items = [grave, mild, below] ∧
    ((b.receive .sort).2.receive .sort).2 = (b.receive .sort).2 := by
  intro below mild grave late b
  let calls : List Call := [.add below, .add mild, .sort, .add grave]
  obtain ⟨hperm, _, hrefused, _, _, hsorted⟩ := calls_keep_first 3 calls
  have hfull : b.hasRoom = false := by
    rw [← Bool.not_eq_true]
    exact mt (holdsFirst_after 3 calls).hasRoom_iff.mp (by decide)
  have hlate : (b.receive (.add late)).1 = some false := congrArg some hfull
  have hitems : b.items = [mild, below, grave] := by
    simp [b, below, mild, grave, after, receive, add, hasRoom, empty, sort, List.mergeSort,
      precedes]
  have hordered : (b.receive .sort).2.items = [grave, mild, below] := by
    simp [receive, sort, hitems, below, mild, grave, List.mergeSort, precedes,
      List.MergeSort.Internal.splitInTwo, Severity.error, Severity.warning]
  exact ⟨hitems, hperm, hlate, hrefused late hlate, hordered, hsorted⟩

end Bag

end LineReview
