import LineReview.Proofs.Classifier.Arrangement
import LineReview.Proofs.Classifier.Heads

/-!
# Names of enums

The name of a plain enum is a site of its own. The name of an enum with `class` or
`struct` is left to the search for classes, which finds one name on a line. So it is
checked exactly once if it is the first name behind `class` (`checkedOnce_iff`), and
not at all if `struct` stands before it (`struct_enum_unchecked`) or another class
comes first.
-/

namespace LineReview.Classifier

section

variable {o : ClassifierOptions} {line : Text} {e : EnumHead} {s : Site}

theorem isRun_of_isMatch (h : e.IsMatch line) : e.name.IsRun line := by
  have hbehind := h.isBehind
  split at hbehind
  · obtain ⟨k, _, hbehind⟩ := hbehind
    exact hbehind.run
  · exact hbehind.run

/-- Sites behind other words are no names of enums. -/
theorem col_ne_of_isIntroduced (h : e.IsMatch line) (hs : IsIntroduced s line)
    (hne : introducer s.role ∉ (("enum" :: recordKeywords).map bytes)) : s.col ≠ e.name.start := by
  obtain ⟨r, hr, _, hcol⟩ := hs
  rw [hcol]
  intro heq
  have hstart := Int.natCast_inj.mp heq
  have hbehind := h.isBehind
  split at hbehind
  · obtain ⟨k, hk, hbehind⟩ := hbehind
    refine hr.start_ne hbehind ?_ hstart
    exact fun hword => hne (hword ▸ List.mem_map_of_mem (List.mem_cons_of_mem _ hk))
  · refine hr.start_ne hbehind ?_ hstart
    exact fun hword => hne (hword ▸ List.mem_map_of_mem List.mem_cons_self)

/-- A site at the name of the enum is the one of a plain enum, or that of the first class. -/
theorem cases_of_col (h : isSkipped o line = false) (he : enum? line = some e)
    (hs : s ∈ classify o line) (hcol : s.col = e.name.start) :
    (e.isScoped = false ∧ s = siteAt line .enumName e.name) ∨
      (className? line = some e.name ∧ s = siteAt line .className e.name) := by
  have hmatch := isMatch_enum? he
  have hrun := isRun_of_isMatch hmatch
  rw [classify_eq h] at hs
  simp only [List.mem_append] at hs
  rcases hs with ((hs | hs) | hs) | hs | hs
  · obtain ⟨r, hr, rfl⟩ := of_mem_classSites hs
    have hname : r = e.name :=
      (isBehind_className? hr).run.eq_of_start hrun (Int.natCast_inj.mp hcol)
    rw [hname] at hr ⊢
    exact Or.inr ⟨hr, rfl⟩
  · obtain ⟨v, hv, _, hcol'⟩ := of_mem_declaredSites hs
    have hapart := hv.not_enum e he
    have hstart : v.start = e.name.start := Int.natCast_inj.mp (hcol'.symm.trans hcol)
    have hpos := hv.run.nonempty
    have hpos' := hrun.nonempty
    rw [Span.overlaps, decide_eq_true (by omega), decide_eq_true (by omega)] at hapart
    cases hapart
  · obtain ⟨hrole, hintroduced⟩ := isIntroduced_namespaceSites hs
    exact absurd hcol (col_ne_of_isIntroduced hmatch hintroduced (by rw [hrole]; decide))
  · obtain ⟨e', he', hplain, rfl⟩ := of_mem_enumSites hs
    rw [he] at he'
    cases he'
    exact Or.inl ⟨hplain, rfl⟩
  · obtain ⟨hrole, hintroduced⟩ := isIntroduced_enumValues hs
    exact absurd hcol (col_ne_of_isIntroduced hmatch hintroduced (by rw [hrole]; decide))

end

/-- As no two sites begin at one offset, those that begin where one does are that one. -/
theorem filter_col_eq {o : ClassifierOptions} {line : Text} {s : Site}
    (h : isSkipped o line = false) (hs : s ∈ classify o line) :
    (classify o line).filter (·.col = s.col) = [s] := by
  have hpairwise := pairwise_col_ne h
  obtain ⟨front, back, hsplit⟩ := List.append_of_mem hs
  rw [hsplit] at hpairwise ⊢
  obtain ⟨_, htail, hcross⟩ := List.pairwise_append.mp hpairwise
  have hfront : front.filter (·.col = s.col) = [] := by
    apply List.filter_eq_nil_iff.mpr
    intro t ht
    rw [decide_eq_true_eq]
    exact hcross t ht s List.mem_cons_self
  have hback : back.filter (·.col = s.col) = [] := by
    apply List.filter_eq_nil_iff.mpr
    intro t ht
    rw [decide_eq_true_eq]
    exact ((List.pairwise_cons.mp htail).1 t ht).symm
  rw [List.filter_append, hfront, List.filter_cons_of_pos (by simp), hback, List.nil_append]

/-- Exactly one site begins where the range does; it has the name that stands there, and is judged
as a class or as an enum. -/
def IsCheckedOnce (o : ClassifierOptions) (line : Text) (r : Span) : Prop :=
  ∃ s, (classify o line).filter (·.col = (r.start : Int)) = [s] ∧ s.name = r.of line ∧
    (s.role = .className ∨ s.role = .enumName)

/-- The name of the first enum of a line is checked exactly once when the enum is plain or when no
name behind `class` comes before; else there is no site for it at all. -/
theorem checkedOnce_iff {o : ClassifierOptions} {line : Text} {e : EnumHead}
    (h : isSkipped o line = false) (he : enum? line = some e) :
    (IsCheckedOnce o line e.name ↔
      e.isScoped = false ∨ e.name.IsFirstBehind (bytes "class") line) ∧
    (¬ IsCheckedOnce o line e.name → ∀ s ∈ classify o line, s.col ≠ e.name.start) := by
  have honce : ∀ role, siteAt line role e.name ∈ classify o line →
      (role = .className ∨ role = .enumName) → IsCheckedOnce o line e.name := by
    intro role hs hrole
    exact ⟨_, filter_col_eq h hs, rfl, hrole⟩
  have hclass : className? line = some e.name → IsCheckedOnce o line e.name := by
    intro hr
    refine honce .className ?_ (.inl rfl)
    rw [classify_eq h]
    simp [classSites, hr]
  have hplain : e.isScoped = false → IsCheckedOnce o line e.name := by
    intro hs
    refine honce .enumName ?_ (.inr rfl)
    rw [classify_eq h]
    simp [enumSites, he, hs]
  refine ⟨⟨?_, ?_⟩, ?_⟩
  · rintro ⟨s, hfilter, _⟩
    have hs : s ∈ (classify o line).filter (·.col = (e.name.start : Int)) := by
      rw [hfilter]
      exact List.mem_singleton_self s
    obtain ⟨hmem, hcol⟩ := List.mem_filter.mp hs
    rcases cases_of_col h he hmem (of_decide_eq_true hcol) with ⟨hscoped, _⟩ | ⟨hr, _⟩
    · exact Or.inl hscoped
    · exact Or.inr (className?_eq_some_iff.mp hr)
  · rintro (hscoped | hfirst)
    · exact hplain hscoped
    · exact hclass (className?_eq_some_iff.mpr hfirst)
  · intro hnot s hs hcol
    rcases cases_of_col h he hs hcol with ⟨hscoped, _⟩ | ⟨hr, _⟩
    · exact hnot (hplain hscoped)
    · exact hnot (hclass hr)

/-- A scoped enum in front of a class. -/
theorem checkedOnce_iff_scoped :
    isSkipped {} (bytes "enum class Color { Red }; class B;") = false ∧
    enum? (bytes "enum class Color { Red }; class B;") = some ⟨true, ⟨11, 16⟩⟩ ∧
    IsCheckedOnce {} (bytes "enum class Color { Red }; class B;") ⟨11, 16⟩ ∧
    Span.IsFirstBehind ⟨11, 16⟩ (bytes "class") (bytes "enum class Color { Red }; class B;") := by
  have hfirst : Span.IsFirstBehind ⟨11, 16⟩ (bytes "class")
      (bytes "enum class Color { Red }; class B;") := className?_eq_some_iff.mp (by decide)
  have hskip : isSkipped {} (bytes "enum class Color { Red }; class B;") = false := by decide
  have henum : enum? (bytes "enum class Color { Red }; class B;") = some ⟨true, ⟨11, 16⟩⟩ := by
    decide
  exact ⟨hskip, henum, (checkedOnce_iff hskip henum).1.mpr (.inr hfirst), hfirst⟩

/-- The name behind `enum struct` is no site. -/
theorem struct_enum_unchecked :
    isSkipped {} (bytes "enum struct Color { Red };") = false ∧
    enum? (bytes "enum struct Color { Red };") = some ⟨true, ⟨12, 17⟩⟩ ∧
    ¬ IsCheckedOnce {} (bytes "enum struct Color { Red };") ⟨12, 17⟩ := by
  have hsites : classify {} (bytes "enum struct Color { Red };") = [] := by decide +kernel
  refine ⟨by decide, by decide, ?_⟩
  rintro ⟨s, hfilter, _⟩
  rw [hsites] at hfilter
  cases hfilter

end LineReview.Classifier
