import LineReview.Proofs.Report.Lines
import LineReview.Proofs.Text.Trimming
import Mathlib.Data.List.Lex
import Mathlib.Data.Prod.Lex

/-!
# The order of a listing

A listing shows every diagnostic once. They stand in the order of their places, and those with the
same place in the order in which they were given. So where no two diagnostics share a place, the
listing does not depend on the order in which they come (`listing_arranged`).

Sorting by a key is stable for any comparison that goes by the key (`ComparesBy`).
-/

namespace LineReview

/-! ## Sorting by a key -/

/-- The comparison goes by the key alone. -/
def ComparesBy {α κ : Type} [LE κ] (key : α → κ) (le : α → α → Bool) : Prop :=
  ∀ a b, le a b = true ↔ key a ≤ key b

namespace ComparesBy

variable {α κ : Type} [LinearOrder κ] {key : α → κ} {le : α → α → Bool}

theorem trans (h : ComparesBy key le) (a b c : α) (hab : le a b = true) (hbc : le b c = true) :
    le a c = true :=
  (h a c).mpr (((h a b).mp hab).trans ((h b c).mp hbc))

theorem total (h : ComparesBy key le) (a b : α) : (le a b || le b a) = true := by
  rw [Bool.or_eq_true, h a b, h b a]
  exact le_total (key a) (key b)

theorem pairwise_sort (h : ComparesBy key le) (l : List α) :
    (l.mergeSort le).Pairwise fun a b => key a ≤ key b :=
  (List.pairwise_mergeSort h.trans h.total l).imp fun {a b} hab => (h a b).mp hab

/-- Those with one and the same key keep their order. -/
theorem filter_sort (h : ComparesBy key le) (l : List α) (k : κ) [DecidablePred (key · = k)] :
    (l.mergeSort le).filter (key · = k) = l.filter (key · = k) := by
  have hequal : (l.filter (key · = k)).Pairwise fun a b => le a b = true := by
    refine List.pairwise_of_forall_mem_list ?_
    intro a ha b hb
    rw [h a b, of_decide_eq_true (List.mem_filter.mp ha).2,
      of_decide_eq_true (List.mem_filter.mp hb).2]
  have hsublist : (l.filter (key · = k)).Sublist (l.mergeSort le) :=
    List.sublist_mergeSort h.trans h.total hequal List.filter_sublist
  have hkept := hsublist.filter (key · = k)
  rw [List.filter_filter] at hkept
  simp only [Bool.and_self] at hkept
  refine (hkept.eq_of_length ?_).symm
  exact ((List.mergeSort_perm l le).filter _).length_eq.symm

/-- Where no key comes twice, the sorted list does not depend on the order before. -/
theorem sort_eq_of_perm (h : ComparesBy key le) {l l' : List α} (hperm : l'.Perm l)
    (hne : l.Pairwise fun a b => key a ≠ key b) : l'.mergeSort le = l.mergeSort le := by
  have hsame : (l'.mergeSort le).Perm (l.mergeSort le) :=
    (List.mergeSort_perm l' le).trans (hperm.trans (List.mergeSort_perm l le).symm)
  refine hsame.eq_of_pairwise ?_ (h.pairwise_sort l') (h.pairwise_sort l)
  intro a b ha hb hab hba
  by_contra hdiff
  have hmem : a ∈ l ∧ b ∈ l :=
    ⟨hperm.mem_iff.mp (List.mem_mergeSort.mp ha), List.mem_mergeSort.mp hb⟩
  have : Std.Symm fun a b : α => key a ≠ key b := ⟨fun _ _ => Ne.symm⟩
  exact hne.forall hmem.1 hmem.2 hdiff (le_antisymm hab hba)

end ComparesBy

/-! ## Places -/

namespace Diagnostic

/-- Where a listing shows a diagnostic: by line, then by column, where 0 is read as 1, then by the
identifier of the code, byte by byte. -/
def place (d : Diagnostic) : ℕ ×ₗ ℕ ×ₗ List ℕ :=
  toLex (d.line.toNat, toLex (max d.col.toNat 1, d.code.id.map UInt8.toNat))

end Diagnostic

theorem Text.map_toNat_lt_iff {s t : Text} : s.map UInt8.toNat < t.map UInt8.toNat ↔ s < t := by
  induction s generalizing t with
  | nil => cases t <;> simp
  | cons a s ih =>
      cases t with
      | nil => simp
      | cons b t =>
          rw [List.map_cons, List.map_cons, List.cons_lt_cons_iff, List.cons_lt_cons_iff, ih,
            UInt8.lt_iff_toNat_lt, UInt8.toNat_inj]

namespace ListingEntry

theorem toNat_col_ofDiagnostic (d : Diagnostic) :
    (ofDiagnostic d).col.toNat = max d.col.toNat 1 := by
  unfold ofDiagnostic
  dsimp only
  split
  · rename_i hzero
    rw [hzero]
    rfl
  · rename_i hne
    have hpos : d.col.toNat ≠ 0 := fun h => hne (UInt32.toNat_inj.mp h)
    omega

theorem precedes_iff (d e : Diagnostic) :
    (ofDiagnostic d).precedes (ofDiagnostic e) = true ↔ d.place < e.place := by
  have hline : d.line < e.line ↔ d.line.toNat < e.line.toNat := UInt32.lt_iff_toNat_lt
  have hcol : (ofDiagnostic d).col < (ofDiagnostic e).col ↔
      max d.col.toNat 1 < max e.col.toNat 1 := by
    rw [UInt32.lt_iff_toNat_lt, toNat_col_ofDiagnostic, toNat_col_ofDiagnostic]
  have hsame : (ofDiagnostic d).col = (ofDiagnostic e).col ↔
      max d.col.toNat 1 = max e.col.toNat 1 := by
    rw [← UInt32.toNat_inj, toNat_col_ofDiagnostic, toNat_col_ofDiagnostic]
  rw [Diagnostic.place, Diagnostic.place, Prod.Lex.toLex_lt_toLex, Prod.Lex.toLex_lt_toLex,
    Text.map_toNat_lt_iff, ← Text.less_iff_lt, ← hline, ← hcol, ← hsame, UInt32.toNat_inj, precedes]
  change (if d.line ≠ e.line then decide (d.line < e.line)
    else if (ofDiagnostic d).col ≠ (ofDiagnostic e).col
      then decide ((ofDiagnostic d).col < (ofDiagnostic e).col)
      else Text.less d.code.id e.code.id) = true ↔ _
  split
  · rename_i hne
    simp [hne]
  · rename_i heq
    rw [not_not] at heq
    split
    · rename_i hne
      simp [heq, hne]
    · rename_i hcoleq
      rw [not_not] at hcoleq
      simp [heq, hcoleq]

theorem comparesBy_place :
    ComparesBy Diagnostic.place fun d e => !(ofDiagnostic e).precedes (ofDiagnostic d) := by
  intro d e
  rw [Bool.not_eq_true', ← not_lt, ← precedes_iff, Bool.not_eq_true]

end ListingEntry

/-! ## The listing of a file -/

namespace Diagnostic

/-- The diagnostics of a file in the order of their places. -/
def listed (ds : List Diagnostic) : List Diagnostic :=
  ds.mergeSort fun d e => !(ListingEntry.ofDiagnostic e).precedes (ListingEntry.ofDiagnostic d)

theorem entries_eq (ds : List Diagnostic) :
    entries ds = (listed ds).map ListingEntry.ofDiagnostic :=
  (List.map_mergeSort (f := ListingEntry.ofDiagnostic) fun _ _ _ _ => rfl).symm

theorem listing_eq (path : Text) (ds : List Diagnostic) :
    listing path ds = Text.joinWith [10]
      ((listed ds).map fun d => (ListingEntry.ofDiagnostic d).render (withoutHere path)) := by
  rw [listing, entries_eq, List.map_map]
  rfl

/-- A listing is made of one entry for each diagnostic, with line breaks between them. The entries
are in the order of their places, and entries with the same place in the order in which they were
given. Every entry ends in its message, which is not broken over lines and has no white space at its
ends. Where no two diagnostics share a place, the listing is the same in whatever order they come. -/
theorem listing_arranged (path : Text) (ds : List Diagnostic) :
    (∃ es : List Diagnostic, es.Perm ds ∧
      listing path ds = Text.joinWith [10]
        (es.map fun d => (ListingEntry.ofDiagnostic d).render (withoutHere path)) ∧
      es.Pairwise (fun d e => d.place ≤ e.place) ∧
      (∀ p, es.filter (·.place = p) = ds.filter (·.place = p)) ∧
      ∀ d ∈ es, (ListingEntry.ofDiagnostic d).message <:+
          (ListingEntry.ofDiagnostic d).render (withoutHere path) ∧
        13 ∉ (ListingEntry.ofDiagnostic d).message ∧
        10 ∉ (ListingEntry.ofDiagnostic d).message ∧
        Text.IsTrimmed (ListingEntry.ofDiagnostic d).message) ∧
    ∀ ds', ds'.Perm ds → (ds.Pairwise fun d e => d.place ≠ e.place) →
      listing path ds' = listing path ds := by
  have hplace := ListingEntry.comparesBy_place
  refine ⟨⟨listed ds, List.mergeSort_perm ds _, listing_eq path ds, hplace.pairwise_sort ds,
    fun p => hplace.filter_sort ds p, ?_⟩, ?_⟩
  · intro d _
    have hbreaks {b : UInt8} (hb : b ∈ (ListingEntry.ofDiagnostic d).message) :=
      ListingEntry.of_mem_unbroken (Text.mem_of_mem_trim hb)
    exact ⟨List.suffix_append _ _, fun h => (hbreaks h).2 rfl, fun h => (hbreaks h).1 rfl,
      Text.isTrimmed_trim _⟩
  · intro ds' hperm hne
    rw [listing_eq, listing_eq, listed, listed, hplace.sort_eq_of_perm hperm hne]

/-- Two diagnostics at one line and column, of which one is about the whole line. They differ in
their codes, so either may be given first. -/
theorem listing_arranged_swapped :
    let long : Diagnostic := ⟨.error, .lineLength, 3, 0, bytes "line too long\r\n"⟩
    let name : Diagnostic := ⟨.warning, .general, 3, 1, bytes " bad name"⟩
    long.place < name.place ∧
      listing (bytes "./a.cpp") [name, long] = listing (bytes "./a.cpp") [long, name] ∧
      (ListingEntry.ofDiagnostic long).message = bytes "line too long" := by
  intro long name
  have hless : long.place < name.place :=
    (ListingEntry.precedes_iff long name).mp (by decide +kernel)
  have hdiffer : [long, name].Pairwise fun d e => d.place ≠ e.place := by
    simpa using hless.ne
  exact ⟨hless, (listing_arranged (bytes "./a.cpp") [long, name]).2 _ (.swap long name []) hdiffer,
    by decide +kernel⟩

end Diagnostic

end LineReview
