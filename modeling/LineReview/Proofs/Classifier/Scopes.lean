import LineReview.Proofs.Classifier.Heads

/-!
# Scopes on one line

Two bodies matter for the variables of a line: that of a record, which makes them
members, and that of an enum, where they are enumerators and no variables. Only one
body of each kind is looked at, the one found first.

A variable is a member exactly when it begins in the body of a record, one that begins
before any record of the line is over (`inClass_iff`); a record behind another one is
not seen (`later_record_missed`). A candidate is left out exactly when it begins in the
body of the first brace behind the first enum. That is the body of an enum definition
if no semicolon comes between (`isMissing_iff`); if one does, whatever the next brace
belongs to is left out (`declared_enum_swallows`).
-/

namespace LineReview.Classifier

/-! ## Records -/

/-- Of all records of the line, the body of the first one decides. -/
theorem any_recordBody?_iff {line : Text} {i : Nat} :
    (recordBody? line).any (·.contains i) = true ↔
      ∃ r : Span, r.IsEarlyIn (definitionBraces recordKeywords line) line ∧ r.contains i = true := by
  cases hbrace : recordBrace? line with
  | none =>
      have hnone : recordBody? line = none := by
        rw [recordBody?, hbrace]
        rfl
      rw [hnone]
      constructor
      · intro h
        cases h
      · rintro ⟨r, ⟨⟨b, hb, _⟩, _⟩, _⟩
        obtain ⟨first, hfirst, _⟩ := exists_recordBrace? hb
        rw [hbrace] at hfirst
        cases hfirst
  | some brace =>
      have hleast := isLeast_recordBrace? hbrace
      obtain ⟨k, hk, r, hr, hopens⟩ := hleast.1
      rw [recordBody?, hbrace, Option.bind_some]
      cases hbody : braceBody? line brace with
      | none => exact absurd hopens.opened (braceBody?_eq_none hbody (Nat.le_refl _))
      | some body =>
          rw [Option.any_some]
          exact contains_first_iff hleast (isBodyOf_of_braceBody? hbody hopens.opened)

theorem mem_declaredSites_of_role {o : ClassifierOptions} {line : Text} {s : Site}
    (h : isSkipped o line = false) (hs : s ∈ classify o line) (hrole : s.role = .variableName) :
    ∃ c ∈ declaredCandidates line, s = variableSite line c := by
  have hmem : s ∈ (classify o line).filter (·.role = .variableName) :=
    List.mem_filter.mpr ⟨hs, decide_eq_true hrole⟩
  rw [filter_classify h, declaredSites_eq] at hmem
  obtain ⟨c, hc, rfl⟩ := List.mem_map.mp hmem
  exact ⟨c, hc, rfl⟩

/-- A variable is in class scope exactly when it begins in the body of a class or struct of the
line that begins before any of them is over. -/
theorem inClass_iff {o : ClassifierOptions} {line : Text} {s : Site}
    (h : isSkipped o line = false) (hs : s ∈ classify o line) (hrole : s.role = .variableName) :
    ∃ i : Nat, s.col = i ∧ (s.context.inClass = true ↔
      ∃ r : Span, r.IsEarlyIn (definitionBraces recordKeywords line) line ∧
        r.contains i = true) := by
  obtain ⟨c, _, rfl⟩ := mem_declaredSites_of_role h hs hrole
  exact ⟨c.name.start, rfl, any_recordBody?_iff⟩

/-- A record in a record, and a variable behind both. -/
theorem inClass_iff_nested :
    isSkipped {} (bytes "struct A { class B { int x; }; int y; }; int z;") = false ∧
    ((classify {} (bytes "struct A { class B { int x; }; int y; }; int z;")).map
        fun s => (s.role, s.col, s.context.inClass)) =
      [(.className, 17, false), (.variableName, 25, true), (.variableName, 35, true),
        (.variableName, 45, false)] ∧
    ∀ s ∈ classify {} (bytes "struct A { class B { int x; }; int y; }; int z;"),
      s.role = .variableName → ∃ i : Nat, s.col = i ∧ (s.context.inClass = true ↔
        ∃ r : Span, r.IsEarlyIn (definitionBraces recordKeywords
            (bytes "struct A { class B { int x; }; int y; }; int z;"))
            (bytes "struct A { class B { int x; }; int y; }; int z;") ∧ r.contains i = true) :=
  ⟨by decide, by decide +kernel, fun _ hs hrole => inClass_iff (by decide) hs hrole⟩

/-- A member of the second record of a line is taken for a plain variable. -/
theorem later_record_missed :
    isSkipped {} (bytes "struct A { }; struct B { int x; };") = false ∧
    ((classify {} (bytes "struct A { }; struct B { int x; };")).map
        fun s => (s.role, s.col, s.context.inClass)) = [(.variableName, 29, false)] ∧
    ∃ r : Span, r.contains 29 = true ∧
      r.IsBodyIn (definitionBraces recordKeywords (bytes "struct A { }; struct B { int x; };"))
        (bytes "struct A { }; struct B { int x; };") := by
  have hends : EndsOutside ((bytes "struct A { }; struct B { int x; };").take 14) := by
    intro b hb
    cases hb
    rfl
  obtain ⟨k, hk, q, hq, hopens⟩ := isHead_of_recordAt (m := 9) hends (by decide)
  refine ⟨by decide, by decide +kernel, ⟨24, 32⟩, by decide, 23, ?_, ?_⟩
  · exact ⟨k, hk, q, hq.isBehind (isKeyword_of_record hk), hopens⟩
  · exact isBodyOf_of_braceBody? (by decide) (by decide)

/-! ## Enums -/

/-- The candidate declares something, and is not the name of a class, a namespace or an enum. -/
structure Candidate.IsEligible (c : Candidate) (line : Text) : Prop where
  mem : c ∈ candidates line
  declares : declares line c = true
  apart : ∀ r ∈ typeNames line, r.overlaps c.name = false

/-- No variable is reported where the candidate begins. -/
def Candidate.IsMissing (c : Candidate) (o : ClassifierOptions) (line : Text) : Prop :=
  ∀ s ∈ classify o line, s.role = .variableName → s.col ≠ c.name.start

theorem isMissing_iff_any {o : ClassifierOptions} {line : Text} {c : Candidate}
    (h : isSkipped o line = false) (hc : c.IsEligible line) :
    c.IsMissing o line ↔ (enumBody? line).any (·.contains c.name.start) = true := by
  constructor
  · intro hmissing
    by_contra hoff
    rw [Bool.not_eq_true] at hoff
    have htypes : (typeNames line).any (·.overlaps c.name) = false :=
      List.any_eq_false.mpr fun r hr => Bool.eq_false_iff.mp (hc.apart r hr)
    have hkept : isKept line (typeNames line) (enumBody? line) c = true := by
      rw [isKept, hc.declares, hoff, htypes]
      rfl
    have hsite : variableSite line c ∈ declaredSites line := by
      rw [declaredSites_eq]
      exact List.mem_map_of_mem (List.mem_filter.mpr ⟨hc.mem, hkept⟩)
    rw [← filter_classify h] at hsite
    exact hmissing _ (List.mem_of_mem_filter hsite) rfl rfl
  · intro hinside s hs hrole hcol
    obtain ⟨d, hd, rfl⟩ := mem_declaredSites_of_role h hs hrole
    have hstart : d.name.start = c.name.start := Int.natCast_inj.mp hcol
    obtain ⟨body, hbody, hcontains⟩ := (Option.any_eq_true _ _).mp hinside
    obtain ⟨e, he, hbrace⟩ := enumBody?_eq_some_iff.mp hbody
    have houtside := (mem_declaredCandidates hd).2.not_enumerator e body he hbrace
    rw [hstart, hcontains] at houtside
    cases houtside

theorem any_enumBody?_iff {line : Text} {i : Nat} :
    (enumBody? line).any (·.contains i) = true ↔
      ∃ e brace, enum? line = some e ∧ IsFirstBrace line e.name.stop brace ∧
        ∃ r : Span, r.IsBodyOf brace line ∧ r.contains i = true := by
  rw [Option.any_eq_true]
  constructor
  · rintro ⟨body, hbody, hi⟩
    obtain ⟨e, he, hbrace⟩ := enumBody?_eq_some_iff.mp hbody
    obtain ⟨brace, hfirst, hr⟩ := braceBody?_eq_some hbrace
    exact ⟨e, brace, he, hfirst, body, hr, hi⟩
  · rintro ⟨e, brace, he, hfirst, r, hr, hi⟩
    cases hbody : braceBody? line e.name.stop with
    | none => exact absurd hfirst.opened (braceBody?_eq_none hbody hfirst.le)
    | some body =>
        refine ⟨body, enumBody?_eq_some_iff.mpr ⟨e, he, hbody⟩, ?_⟩
        obtain ⟨brace', hfirst', hr'⟩ := braceBody?_eq_some hbody
        rw [hfirst'.unique hfirst] at hr'
        refine hr'.contains_of_brace_le hr (Nat.le_refl _) ?_ hi
        have hle := hr'.le
        rw [hr.start_eq, ← hr'.start_eq]
        omega

/-- The first brace behind the first enum, if there is one, comes before any semicolon. -/
def FirstEnumDefines (t : Text) : Prop :=
  ∀ e brace, enum? t = some e → IsFirstBrace t e.name.stop brace →
    ∀ i, e.name.stop ≤ i → i < brace → t[i]? ≠ some 59

/-- The brace behind an enum that is defined is the first of all that define one. -/
theorem isLeast_enumBraces {line : Text} (h : FirstEnumDefines line) {e : EnumHead} {brace : Nat}
    (he : enum? line = some e) (hfirst : IsFirstBrace line e.name.stop brace) :
    IsLeast (enumBraces line) brace := by
  constructor
  · refine ⟨e, isMatch_enum? he, hfirst.le, hfirst.opened, ?_⟩
    intro i hlow hhigh
    exact ⟨hfirst.first i hlow hhigh, h e brace he hfirst i hlow hhigh⟩
  · intro b hb
    obtain ⟨e', he', hle⟩ := exists_enum? hb
    rw [he] at he'
    cases he'
    obtain ⟨_, _, hopens⟩ := hb
    by_contra hlt
    exact hfirst.first b hle (Nat.not_le.mp hlt) hopens.opened

theorem any_enumBody?_iff_early {line : Text} (h : FirstEnumDefines line) {i : Nat} :
    (enumBody? line).any (·.contains i) = true ↔
      ∃ r : Span, r.IsEarlyIn (enumBraces line) line ∧ r.contains i = true := by
  rw [any_enumBody?_iff]
  constructor
  · rintro ⟨e, brace, he, hfirst, r, hr, hi⟩
    exact (contains_first_iff (isLeast_enumBraces h he hfirst) hr).mp hi
  · rintro ⟨r, hearly, hi⟩
    obtain ⟨b, hb, _⟩ := hearly.body
    obtain ⟨e, he, hle⟩ := exists_enum? hb
    obtain ⟨_, _, hopens⟩ := hb
    cases hbody : braceBody? line e.name.stop with
    | none => exact absurd hopens.opened (braceBody?_eq_none hbody hle)
    | some body =>
        obtain ⟨brace, hfirst, hr⟩ := braceBody?_eq_some hbody
        have hleast := isLeast_enumBraces h he hfirst
        exact ⟨e, brace, he, hfirst, body, hr, (contains_first_iff hleast hr).mpr ⟨r, hearly, hi⟩⟩

/-- A candidate that could be a variable is left out exactly when it begins in the body of the first
brace behind the first enum. If no semicolon comes before that brace, this is to begin in the body
of an enum definition that begins before any of them is over. -/
theorem isMissing_iff {o : ClassifierOptions} {line : Text} {c : Candidate}
    (h : isSkipped o line = false) (hc : c.IsEligible line) :
    (c.IsMissing o line ↔
      ∃ e brace, enum? line = some e ∧ IsFirstBrace line e.name.stop brace ∧
        ∃ r : Span, r.IsBodyOf brace line ∧ r.contains c.name.start = true) ∧
    (FirstEnumDefines line → (c.IsMissing o line ↔
      ∃ r : Span, r.IsEarlyIn (enumBraces line) line ∧ r.contains c.name.start = true)) := by
  rw [isMissing_iff_any h hc]
  exact ⟨any_enumBody?_iff, fun hdefines => any_enumBody?_iff_early hdefines⟩

theorem firstEnumDefines_values : FirstEnumDefines (bytes "enum E { A = 1 }; int x;") := by
  intro e brace he hfirst i hlow hhigh
  have hname : enum? (bytes "enum E { A = 1 }; int x;") = some ⟨false, ⟨5, 6⟩⟩ := by decide
  rw [hname] at he
  cases he
  have hbrace : ¬ 7 < brace := fun hlt => hfirst.first 7 (by decide) hlt (by decide)
  have hi : i = 6 := by
    dsimp only at hlow
    omega
  rw [hi]
  decide

/-- An enumerator with a value is left out, and a variable behind the enum is not. -/
theorem isMissing_iff_values :
    isSkipped {} (bytes "enum E { A = 1 }; int x;") = false ∧
    Candidate.IsEligible ⟨9, ⟨9, 10⟩, 12⟩ (bytes "enum E { A = 1 }; int x;") ∧
    FirstEnumDefines (bytes "enum E { A = 1 }; int x;") ∧
    ((classify {} (bytes "enum E { A = 1 }; int x;")).map fun s => (s.role, s.col)) =
      [(.variableName, 22), (.enumName, 5)] ∧
    (Candidate.IsMissing ⟨9, ⟨9, 10⟩, 12⟩ {} (bytes "enum E { A = 1 }; int x;") ↔
      ∃ r : Span, r.IsEarlyIn (enumBraces (bytes "enum E { A = 1 }; int x;"))
        (bytes "enum E { A = 1 }; int x;") ∧ r.contains 9 = true) := by
  have hc : Candidate.IsEligible ⟨9, ⟨9, 10⟩, 12⟩ (bytes "enum E { A = 1 }; int x;") :=
    ⟨by decide, by decide, by decide⟩
  exact ⟨by decide, hc, firstEnumDefines_values, by decide +kernel,
    (isMissing_iff (by decide) hc).2 firstEnumDefines_values⟩

/-- An enum that is only declared makes a variable disappear from the body that follows. -/
theorem declared_enum_swallows :
    isSkipped {} (bytes "enum E; struct A { int x; };") = false ∧
    Candidate.IsEligible ⟨23, ⟨23, 24⟩, 25⟩ (bytes "enum E; struct A { int x; };") ∧
    Candidate.IsMissing ⟨23, ⟨23, 24⟩, 25⟩ {} (bytes "enum E; struct A { int x; };") ∧
    ∀ r : Span, ¬ r.IsBodyIn (enumBraces (bytes "enum E; struct A { int x; };"))
      (bytes "enum E; struct A { int x; };") := by
  refine ⟨by decide, ⟨by decide, by decide, by decide⟩, ?_, ?_⟩
  · have hsites : (classify {} (bytes "enum E; struct A { int x; };")).map (·.role) =
        [.enumName] := by decide +kernel
    intro s hs hrole
    have hmem : s.role ∈ [Role.enumName] := hsites ▸ List.mem_map_of_mem hs
    rw [hrole] at hmem
    cases hmem with
    | tail _ hmem => cases hmem
  · rintro r ⟨brace, ⟨_, ⟨n, e, _, henum, rfl⟩, hopens⟩, _⟩
    -- the only enum of the line has the semicolon right behind its name
    have hn : n = 0 := by
      have hnone : ∀ n < 28, 0 < n →
          enumAt ((bytes "enum E; struct A { int x; };").drop n) = none := by decide
      by_contra hne
      rcases Nat.lt_or_ge n 28 with hlt | hge
      · rw [hnone n hlt (Nat.pos_of_ne_zero hne)] at henum
        cases henum
      · rw [List.drop_eq_nil_of_le hge] at henum
        cases henum
    have hname : enumAt (bytes "enum E; struct A { int x; };") = some ⟨false, ⟨5, 6⟩⟩ := by decide
    subst hn
    rw [List.drop_zero, hname] at henum
    cases henum
    rcases Nat.lt_or_eq_of_le hopens.le with hlt | heq
    · exact (hopens.between 6 (Nat.le_refl _) hlt).2 (by decide)
    · have hopen := hopens.opened
      rw [← heq] at hopen
      exact absurd hopen (by decide)

end LineReview.Classifier
