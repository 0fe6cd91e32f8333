import LineReview.Proofs.Classifier.Variables

/-!
# How the sites of a line lie

Every site names a run of the line, no two sites share a byte, and the roles come
in a fixed order, with the variables and the enumerators from left to right
(`sites_arranged`).

As runs are the same or lie apart, it is enough that no two sites begin at one
offset. Names of types and enumerators have different words before them, or none
(`IsIntroduced.col_ne`), and variables are sorted out when they overlap the name
of a type or lie in the body of the enum.
-/

namespace LineReview.Classifier

/-! ## Where sites begin -/

/-- The word that introduces a name of the role, if there is one. -/
def introducer : Role → Text
  | .className => bytes "class"
  | .namespaceName => bytes "namespace"
  | .enumName => bytes "enum"
  | _ => []

/-- The site names a run behind the word that introduces its role. -/
def IsIntroduced (s : Site) (line : Text) : Prop :=
  ∃ r : Span, r.IsBehind (introducer s.role) line ∧ Names s r line

section

variable {o : ClassifierOptions} {line : Text} {s t : Site}

theorem IsIntroduced.col_ne (hs : IsIntroduced s line) (ht : IsIntroduced t line)
    (hne : introducer s.role ≠ introducer t.role) : s.col ≠ t.col := by
  obtain ⟨r, hr, _, hcol⟩ := hs
  obtain ⟨r', hr', _, hcol'⟩ := ht
  rw [hcol, hcol']
  exact fun h => hr.start_ne hr' hne (Int.natCast_inj.mp h)

theorem isIntroduced_classSites (h : s ∈ classSites line) :
    s.role = .className ∧ IsIntroduced s line := by
  obtain ⟨r, hr, rfl⟩ := of_mem_classSites h
  exact ⟨rfl, r, isBehind_className? hr, rfl, rfl⟩

theorem isIntroduced_namespaceSites (h : s ∈ namespaceSites line) :
    s.role = .namespaceName ∧ IsIntroduced s line := by
  obtain ⟨r, hr, rfl⟩ := of_mem_namespaceSites h
  exact ⟨rfl, r, isBehind_namespaceName? hr, rfl, rfl⟩

theorem isIntroduced_enumSites (h : s ∈ enumSites line) :
    s.role = .enumName ∧ IsIntroduced s line := by
  obtain ⟨e, he, hplain, rfl⟩ := of_mem_enumSites h
  exact ⟨rfl, e.name, isBehind_enum? he hplain, rfl, rfl⟩

theorem isIntroduced_enumValues (h : s ∈ enumValues o line) :
    s.role = .enumValue ∧ IsIntroduced s line := by
  obtain ⟨body, _, hs⟩ := isEnumerator_of_enumValues h
  obtain ⟨r, hr, _, _, hnames⟩ := hs.place
  refine ⟨hs.role, r, ?_, hnames⟩
  rw [hs.role]
  exact hr

theorem of_mem_declaredSites (h : s ∈ declaredSites line) :
    ∃ r : Span, r.IsDeclared line ∧ Names s r line := by
  rw [declaredSites_eq] at h
  obtain ⟨c, hc, rfl⟩ := List.mem_map.mp h
  exact ⟨c.name, (mem_declaredCandidates hc).2, rfl, rfl⟩

/-- The name of a type that is a site is one of those that are no variables. -/
theorem exists_typeName (h : s ∈ classSites line ∨ s ∈ namespaceSites line ∨ s ∈ enumSites line) :
    ∃ r ∈ typeNames line, r.IsRun line ∧ s.col = r.start := by
  rcases h with h | h | h
  · obtain ⟨r, hr, rfl⟩ := of_mem_classSites h
    exact ⟨r, mem_typeNames.mpr (.inl hr), (isBehind_className? hr).run, rfl⟩
  · obtain ⟨r, hr, rfl⟩ := of_mem_namespaceSites h
    exact ⟨r, mem_typeNames.mpr (.inr (.inl hr)), (isBehind_namespaceName? hr).run, rfl⟩
  · obtain ⟨e, he, hplain, rfl⟩ := of_mem_enumSites h
    exact ⟨e.name, mem_typeNames.mpr (.inr (.inr ⟨e, he, rfl⟩)), (isBehind_enum? he hplain).run, rfl⟩

/-- A variable does not begin where the name of a type does. -/
theorem col_ne_of_typeName (hs : s ∈ declaredSites line)
    (ht : t ∈ classSites line ∨ t ∈ namespaceSites line ∨ t ∈ enumSites line) : s.col ≠ t.col := by
  obtain ⟨v, hv, _, hcol⟩ := of_mem_declaredSites hs
  obtain ⟨r, htype, hr, hcol'⟩ := exists_typeName ht
  have hoverlaps : r.overlaps v = false := by
    rcases mem_typeNames.mp htype with hclass | hnamespace | ⟨e, henum, rfl⟩
    · exact hv.not_class r hclass
    · exact hv.not_namespace r hnamespace
    · exact hv.not_enum e henum
  have hpos := hv.run.nonempty
  have hpos' := hr.nonempty
  rw [hcol, hcol']
  intro h
  have hstart := Int.natCast_inj.mp h
  rw [Span.overlaps, decide_eq_true (by omega), decide_eq_true (by omega)] at hoverlaps
  cases hoverlaps

/-- A variable does not begin where an enumerator does. -/
theorem col_ne_of_enumValues (hs : s ∈ declaredSites line) (ht : t ∈ enumValues o line) :
    s.col ≠ t.col := by
  obtain ⟨v, hv, _, hcol⟩ := of_mem_declaredSites hs
  obtain ⟨body, hbody, ht⟩ := isEnumerator_of_enumValues ht
  obtain ⟨e, he, hbrace⟩ := enumBody?_eq_some_iff.mp hbody
  obtain ⟨r, hr, hlow, hhigh, _, hcol'⟩ := ht.place
  have hpos := hr.run.nonempty
  have houtside := hv.not_enumerator e body he hbrace
  rw [hcol, hcol']
  intro h
  have hstart := Int.natCast_inj.mp h
  rw [Span.contains, decide_eq_true (by omega), decide_eq_true (by omega)] at houtside
  cases houtside

end

/-! ## The parts -/

theorem pairwise_of_length_le_one {α : Type} {R : α → α → Prop} {l : List α} (h : l.length ≤ 1) :
    l.Pairwise R := by
  match l, h with
  | [], _ => exact .nil
  | [a], _ => exact List.pairwise_singleton R a

theorem length_map_siteAt (line : Text) (role : Role) (name? : Option Span) :
    (name?.toList.map (siteAt line role)).length ≤ 1 := by
  cases name? <;> simp

theorem length_classSites (line : Text) : (classSites line).length ≤ 1 :=
  length_map_siteAt line _ _

theorem length_namespaceSites (line : Text) : (namespaceSites line).length ≤ 1 :=
  length_map_siteAt line _ _

theorem length_enumSites (line : Text) : (enumSites line).length ≤ 1 := by
  unfold enumSites
  cases enum? line with
  | none => exact Nat.zero_le 1
  | some e => cases hscoped : e.isScoped <;> simp [hscoped]

theorem pairwise_declaredSites (line : Text) : (declaredSites line).Pairwise (·.col < ·.col) := by
  rw [declaredSites_eq, List.pairwise_map]
  refine (pairwise_declaredCandidates line).imp_of_mem ?_
  intro c d hc _ hle
  have hpos := (mem_declaredCandidates hc).2.run.nonempty
  simp only [variableSite]
  omega

theorem pairwise_enumValues (o : ClassifierOptions) (line : Text) :
    (enumValues o line).Pairwise (·.col < ·.col) := by
  unfold enumValues
  split
  · cases enumBody? line with
    | none => exact .nil
    | some body =>
        rw [Option.toList_some, List.flatMap_singleton]
        exact (pairwise_enumeratorsFrom _ _).2
  · exact .nil

/-- No two sites of a line begin at one offset. -/
theorem pairwise_col_ne {o : ClassifierOptions} {line : Text} (h : isSkipped o line = false) :
    (classify o line).Pairwise (·.col ≠ ·.col) := by
  -- of two names of types, or a name and an enumerator
  have hword : ∀ {s t : Site} {a b : Role}, s.role = a ∧ IsIntroduced s line →
      t.role = b ∧ IsIntroduced t line → introducer a ≠ introducer b → s.col ≠ t.col := by
    rintro s t _ _ ⟨rfl, hs⟩ ⟨rfl, ht⟩ hne
    exact hs.col_ne ht hne
  have hsorted : ∀ {l : List Site}, l.Pairwise (·.col < ·.col) → l.Pairwise (·.col ≠ ·.col) :=
    fun hl => hl.imp Int.ne_of_lt
  have hfront : (classSites line ++ declaredSites line).Pairwise (·.col ≠ ·.col) := by
    refine List.pairwise_append.mpr ⟨pairwise_of_length_le_one (length_classSites line),
      hsorted (pairwise_declaredSites line), ?_⟩
    intro s hs t ht
    exact (col_ne_of_typeName ht (.inl hs)).symm
  have hmiddle : (classSites line ++ declaredSites line ++ namespaceSites line).Pairwise
      (·.col ≠ ·.col) := by
    refine List.pairwise_append.mpr
      ⟨hfront, pairwise_of_length_le_one (length_namespaceSites line), ?_⟩
    intro s hs t ht
    rcases List.mem_append.mp hs with hs | hs
    · exact hword (isIntroduced_classSites hs) (isIntroduced_namespaceSites ht) (by decide)
    · exact col_ne_of_typeName hs (.inr (.inl ht))
  have hback : (enumSites line ++ enumValues o line).Pairwise (·.col ≠ ·.col) := by
    refine List.pairwise_append.mpr ⟨pairwise_of_length_le_one (length_enumSites line),
      hsorted (pairwise_enumValues o line), ?_⟩
    intro s hs t ht
    exact hword (isIntroduced_enumSites hs) (isIntroduced_enumValues ht) (by decide)
  rw [classify_eq h]
  refine List.pairwise_append.mpr ⟨hmiddle, hback, ?_⟩
  intro s hs t ht
  rw [List.mem_append, List.mem_append] at hs
  rcases hs with (hs | hs) | hs <;> rcases List.mem_append.mp ht with ht | ht
  · exact hword (isIntroduced_classSites hs) (isIntroduced_enumSites ht) (by decide)
  · exact hword (isIntroduced_classSites hs) (isIntroduced_enumValues ht) (by decide)
  · exact col_ne_of_typeName hs (.inr (.inr ht))
  · exact col_ne_of_enumValues hs ht
  · exact hword (isIntroduced_namespaceSites hs) (isIntroduced_enumSites ht) (by decide)
  · exact hword (isIntroduced_namespaceSites hs) (isIntroduced_enumValues ht) (by decide)

/-! ## Sites and runs -/

/-- Every site names a run. -/
theorem exists_isRun {o : ClassifierOptions} {line : Text} {s : Site}
    (h : isSkipped o line = false) (hs : s ∈ classify o line) :
    ∃ r : Span, r.IsRun line ∧ Names s r line := by
  have hintroduced : IsIntroduced s line → ∃ r : Span, r.IsRun line ∧ Names s r line := by
    rintro ⟨r, hr, hnames⟩
    exact ⟨r, hr.run, hnames⟩
  rw [classify_eq h] at hs
  simp only [List.mem_append] at hs
  rcases hs with ((hs | hs) | hs) | hs | hs
  · exact hintroduced (isIntroduced_classSites hs).2
  · obtain ⟨r, hr, hnames⟩ := of_mem_declaredSites hs
    exact ⟨r, hr.run, hnames⟩
  · exact hintroduced (isIntroduced_namespaceSites hs).2
  · exact hintroduced (isIntroduced_enumSites hs).2
  · exact hintroduced (isIntroduced_enumValues hs).2

theorem Names.length {s : Site} {r : Span} {line : Text} (h : Names s r line) (hr : r.IsRun line) :
    r.start + s.name.length = r.stop := by
  have hpos := hr.nonempty
  rw [h.1, hr.length_of]
  omega

/-- The sites share no byte. -/
def AreApart (s t : Site) : Prop :=
  s.col + s.name.length ≤ t.col ∨ t.col + t.name.length ≤ s.col

theorem areApart_of_isRun {s t : Site} {r r' : Span} {line : Text} (hr : r.IsRun line)
    (hs : Names s r line) (hr' : r'.IsRun line) (ht : Names t r' line) (hne : s.col ≠ t.col) :
    AreApart s t := by
  have hlength := hs.length hr
  have hlength' := ht.length hr'
  have hstart : r.start ≠ r'.start := by
    intro h
    rw [hs.2, ht.2, h] at hne
    exact hne rfl
  unfold AreApart
  rw [hs.2, ht.2]
  rcases Nat.lt_or_gt_of_ne hstart with hlt | hlt
  · have hapart := hr.apart hr' hlt
    omega
  · have hapart := hr'.apart hr hlt
    omega

/-- At most one class, then variables from left to right, then at most one namespace, then at most
one enum, then, if they are asked for, enumerators from left to right. -/
def IsArranged (o : ClassifierOptions) (sites : List Site) : Prop :=
  ∃ classes vars namespaces enums values : List Site,
    sites = classes ++ vars ++ namespaces ++ (enums ++ values) ∧
    (classes.length ≤ 1 ∧ ∀ s ∈ classes, s.role = .className) ∧
    (vars.Pairwise (·.col < ·.col) ∧ ∀ s ∈ vars, s.role = .variableName) ∧
    (namespaces.length ≤ 1 ∧ ∀ s ∈ namespaces, s.role = .namespaceName) ∧
    (enums.length ≤ 1 ∧ ∀ s ∈ enums, s.role = .enumName) ∧
    (values.Pairwise (·.col < ·.col) ∧ ∀ s ∈ values, s.role = .enumValue) ∧
    (o.enumerators = false → values = [])

theorem isArranged_classify {o : ClassifierOptions} {line : Text} (h : isSkipped o line = false) :
    IsArranged o (classify o line) := by
  refine ⟨_, _, _, _, _, classify_eq h, ⟨length_classSites line, ?_⟩,
    ⟨pairwise_declaredSites line, ?_⟩, ⟨length_namespaceSites line, ?_⟩,
    ⟨length_enumSites line, ?_⟩, ⟨pairwise_enumValues o line, ?_⟩, ?_⟩
  · exact fun s hs => (isIntroduced_classSites hs).1
  · exact fun s hs => role_of_mem_declaredSites hs
  · exact fun s hs => (isIntroduced_namespaceSites hs).1
  · exact fun s hs => (isIntroduced_enumSites hs).1
  · exact fun s hs => (isIntroduced_enumValues hs).1
  · intro hoff
    unfold enumValues
    rw [hoff]
    rfl

/-- Every site of a line names the maximal run of word bytes at its column, no two sites share a
byte, and the roles come in order. -/
theorem sites_arranged (o : ClassifierOptions) (line : Text) :
    (∀ s ∈ classify o line, ∃ i : Nat, s.col = i ∧
      s.name = line.slice i (i + s.name.length) ∧ Span.IsRun ⟨i, i + s.name.length⟩ line) ∧
    (classify o line).Pairwise AreApart ∧ IsArranged o (classify o line) := by
  cases hskip : isSkipped o line with
  | true =>
      rw [classify_of_isSkipped hskip]
      refine ⟨nofun, .nil, [], [], [], [], [], rfl, ?_⟩
      simp
  | false =>
      refine ⟨?_, ?_, isArranged_classify hskip⟩
      · intro s hs
        obtain ⟨r, hr, hnames⟩ := exists_isRun hskip hs
        refine ⟨r.start, hnames.2, ?_, ?_⟩
        · rw [hnames.length hr]
          exact hnames.1
        · rw [hnames.length hr]
          exact hr
      · refine (pairwise_col_ne hskip).imp_of_mem ?_
        intro s t hs ht hne
        obtain ⟨r, hr, hnames⟩ := exists_isRun hskip hs
        obtain ⟨r', hr', hnames'⟩ := exists_isRun hskip ht
        exact areApart_of_isRun hr hnames hr' hnames' hne

end LineReview.Classifier
