import LineReview.Proofs.Classifier.Candidates
import Mathlib.Data.List.Forall2

/-!
# The variables of a line

The sites of a line come in five parts, one for each role (`classify_eq`). The
variables among them are exactly the runs that a mark follows, that declare
something, and that are neither enumerators nor names of types, in the order of
the line (`variables_of_line`). A variable is global when there is no white space
before it, qualifiers apart, and these are all the qualifiers there are.
-/

namespace LineReview.Classifier

/-! ## The parts of a line -/

/-- The names of types that are not reported as variables again. -/
def typeNames (line : Text) : List Span :=
  (className? line).toList ++ (namespaceName? line).toList ++ ((enum? line).map (·.name)).toList

/-- The body of the first enum, where no variables are looked for. -/
def enumBody? (line : Text) : Option Span :=
  (enum? line).bind fun e => braceBody? line e.name.stop

def classSites (line : Text) : List Site := (className? line).toList.map (siteAt line .className)

/-- The variables, apart from enumerators and names of types. -/
def declaredSites (line : Text) : List Site := variableSites line (typeNames line) (enumBody? line)

def namespaceSites (line : Text) : List Site :=
  (namespaceName? line).toList.map (siteAt line .namespaceName)

/-- The name of the enum, unless `class` or `struct` makes it the name of a class. -/
def enumSites (line : Text) : List Site :=
  (enum? line).toList.flatMap fun e => if e.isScoped then [] else [siteAt line .enumName e.name]

/-- The enumerators, when they are asked for. -/
def enumValues (o : ClassifierOptions) (line : Text) : List Site :=
  if o.enumerators then (enumBody? line).toList.flatMap (enumerators line) else []

theorem classify_eq {o : ClassifierOptions} {line : Text} (h : isSkipped o line = false) :
    classify o line = classSites line ++ declaredSites line ++ namespaceSites line ++
      (enumSites line ++ enumValues o line) := by
  unfold classify
  rw [if_neg (Bool.eq_false_iff.mp h)]
  refine congrArg (classSites line ++ declaredSites line ++ namespaceSites line ++ ·) ?_
  unfold enumSites enumValues enumBody?
  cases enum? line with
  | none => cases o.enumerators <;> rfl
  | some e =>
      dsimp only
      rw [Option.bind_some, Option.toList_some, List.flatMap_singleton]
      cases braceBody? line e.name.stop with
      | none => rfl
      | some body => rw [Option.toList_some, List.flatMap_singleton]

theorem classify_of_isSkipped {o : ClassifierOptions} {line : Text} (h : isSkipped o line = true) :
    classify o line = [] := by
  unfold classify
  rw [if_pos h]

theorem mem_typeNames {line : Text} {r : Span} :
    r ∈ typeNames line ↔ className? line = some r ∨ namespaceName? line = some r ∨
      ∃ e, enum? line = some e ∧ e.name = r := by
  simp [typeNames]

theorem enumBody?_eq_some_iff {line : Text} {body : Span} :
    enumBody? line = some body ↔ ∃ e, enum? line = some e ∧ braceBody? line e.name.stop = some body :=
  Option.bind_eq_some_iff

section Roles

variable {o : ClassifierOptions} {line : Text} {s : Site}

theorem of_mem_map_siteAt {name? : Option Span} {role : Role}
    (h : s ∈ name?.toList.map (siteAt line role)) :
    ∃ r, name? = some r ∧ s = siteAt line role r := by
  obtain ⟨r, hr, rfl⟩ := List.mem_map.mp h
  exact ⟨r, Option.mem_toList.mp hr, rfl⟩

theorem of_mem_classSites (h : s ∈ classSites line) :
    ∃ r, className? line = some r ∧ s = siteAt line .className r :=
  of_mem_map_siteAt h

theorem of_mem_namespaceSites (h : s ∈ namespaceSites line) :
    ∃ r, namespaceName? line = some r ∧ s = siteAt line .namespaceName r :=
  of_mem_map_siteAt h

theorem of_mem_enumSites (h : s ∈ enumSites line) :
    ∃ e, enum? line = some e ∧ e.isScoped = false ∧ s = siteAt line .enumName e.name := by
  obtain ⟨e, he, hs⟩ := List.mem_flatMap.mp h
  split at hs
  · cases hs
  · rename_i hplain
    exact ⟨e, Option.mem_toList.mp he, Bool.eq_false_iff.mpr hplain, List.mem_singleton.mp hs⟩

theorem isEnumerator_of_enumValues (h : s ∈ enumValues o line) :
    ∃ body, enumBody? line = some body ∧ IsEnumerator s line body := by
  unfold enumValues at h
  split at h
  · obtain ⟨body, hbody, hs⟩ := List.mem_flatMap.mp h
    have hbody := Option.mem_toList.mp hbody
    obtain ⟨e, _, hbrace⟩ := Option.bind_eq_some_iff.mp hbody
    exact ⟨body, hbody, isEnumerator_of_enumerators hbrace hs⟩
  · cases h

end Roles

/-! ## Variables -/

/-- Is the candidate a variable, given the names of types and the body of an enum? -/
def isKept (line : Text) (types : List Span) (enumBody : Option Span) (c : Candidate) : Bool :=
  declares line c && !(enumBody.any (·.contains c.name.start) || types.any (·.overlaps c.name))

/-- The site of a candidate. -/
def variableSite (line : Text) (c : Candidate) : Site :=
  { role := .variableName
    name := c.name.of line
    col := c.name.start
    context :=
      { inClass := (recordBody? line).any (·.contains c.name.start)
        isStatic := Text.hasInfix (bytes "static") line
        isConst := Text.hasInfix (bytes "const") line
        isBool := Text.hasInfix (bytes "bool") line
        isGlobal := !Text.hasSpace (line.take c.start) } }

theorem variableSites_eq (line : Text) (types : List Span) (enumBody : Option Span) :
    variableSites line types enumBody =
      ((candidates line).filter (isKept line types enumBody)).map (variableSite line) := by
  unfold variableSites
  rw [← List.filterMap_eq_map, List.filterMap_filter]
  refine List.filterMap_congr ?_
  intro c _
  unfold isKept
  cases declares line c with
  | false => rfl
  | true =>
      cases enumBody.any (·.contains c.name.start) || types.any (·.overlaps c.name) <;> rfl

/-- The line declares a variable at the range: a run with a mark behind it that declares something
and is neither an enumerator nor the name of a type. -/
structure Span.IsDeclared (r : Span) (line : Text) : Prop where
  run : r.IsRun line
  declares : ∃ e, r.IsEnded line e ∧ declares line ⟨r.start, r, e + 1⟩ = true
  not_enumerator : ∀ e body, enum? line = some e → braceBody? line e.name.stop = some body →
    body.contains r.start = false
  not_class : ∀ s, className? line = some s → s.overlaps r = false
  not_namespace : ∀ s, namespaceName? line = some s → s.overlaps r = false
  not_enum : ∀ e, enum? line = some e → e.name.overlaps r = false

theorem isKept_iff {line : Text} {c : Candidate} (h : c.IsExact line) :
    isKept line (typeNames line) (enumBody? line) c = true ↔ c.name.IsDeclared line := by
  have hdeclares : declares line ⟨c.name.start, c.name, c.stop - 1 + 1⟩ = declares line c := by
    rw [Nat.sub_add_cancel h.pos]
    rfl
  have hbody : (enumBody? line).any (·.contains c.name.start) = false ↔
      ∀ body, enumBody? line = some body → body.contains c.name.start = false := by
    cases enumBody? line <;> simp
  unfold isKept
  rw [Bool.and_eq_true, Bool.not_eq_true', Bool.or_eq_false_iff, hbody, List.any_eq_false]
  constructor
  · rintro ⟨hdecl, henum, htypes⟩
    have htype : ∀ s ∈ typeNames line, s.overlaps c.name = false :=
      fun s hs => Bool.eq_false_iff.mpr (htypes s hs)
    exact
      { run := h.run
        declares := ⟨c.stop - 1, h.ended, hdeclares.trans hdecl⟩
        not_enumerator := fun e body he hb => henum body (enumBody?_eq_some_iff.mpr ⟨e, he, hb⟩)
        not_class := fun s hs => htype s (mem_typeNames.mpr (.inl hs))
        not_namespace := fun s hs => htype s (mem_typeNames.mpr (.inr (.inl hs)))
        not_enum := fun e he => htype e.name (mem_typeNames.mpr (.inr (.inr ⟨e, he, rfl⟩))) }
  · intro hr
    refine ⟨?_, ?_, ?_⟩
    · obtain ⟨e, he, hdecl⟩ := hr.declares
      rw [← hdeclares, h.ended.unique he, hdecl]
    · intro body hb
      obtain ⟨e, he, hbrace⟩ := enumBody?_eq_some_iff.mp hb
      exact hr.not_enumerator e body he hbrace
    · intro s hs
      rw [Bool.not_eq_true]
      rcases mem_typeNames.mp hs with hs | hs | ⟨e, he, rfl⟩
      · exact hr.not_class s hs
      · exact hr.not_namespace s hs
      · exact hr.not_enum e he

/-- The candidates that are variables. -/
def declaredCandidates (line : Text) : List Candidate :=
  (candidates line).filter (isKept line (typeNames line) (enumBody? line))

theorem declaredSites_eq (line : Text) :
    declaredSites line = (declaredCandidates line).map (variableSite line) :=
  variableSites_eq line (typeNames line) (enumBody? line)

theorem mem_declaredCandidates {line : Text} {c : Candidate} (h : c ∈ declaredCandidates line) :
    c.IsExact line ∧ c.name.IsDeclared line := by
  obtain ⟨hc, hkept⟩ := List.mem_filter.mp h
  have hexact := (candidates_exact line).1 c hc
  exact ⟨hexact, (isKept_iff hexact).mp hkept⟩

theorem pairwise_declaredCandidates (line : Text) :
    (declaredCandidates line).Pairwise fun c d => c.name.stop ≤ d.name.start :=
  (candidates_exact line).2.2.filter _

theorem exists_declaredCandidate {line : Text} {r : Span} (h : r.IsDeclared line) :
    ∃ c ∈ declaredCandidates line, c.name = r := by
  obtain ⟨hexact, hfound, _⟩ := candidates_exact line
  obtain ⟨e, he, _⟩ := h.declares
  obtain ⟨c, hc, rfl⟩ := hfound r h.run e he
  exact ⟨c, List.mem_filter.mpr ⟨hc, (isKept_iff (hexact c hc)).mpr h⟩, rfl⟩

theorem role_of_mem_declaredSites {line : Text} {s : Site} (h : s ∈ declaredSites line) :
    s.role = .variableName := by
  rw [declaredSites_eq] at h
  obtain ⟨c, _, rfl⟩ := List.mem_map.mp h
  rfl

/-- The sites with the role of a variable are the part of the variables. -/
theorem filter_classify {o : ClassifierOptions} {line : Text} (h : isSkipped o line = false) :
    (classify o line).filter (·.role = .variableName) = declaredSites line := by
  have hother : ∀ {l : List Site} {role : Role}, (∀ s ∈ l, s.role = role) → role ≠ .variableName →
      l.filter (·.role = .variableName) = [] := by
    intro l role hl hne
    refine List.filter_eq_nil_iff.mpr fun s hs => ?_
    rw [hl s hs, decide_eq_true_eq]
    exact hne
  have hclass : ∀ s ∈ classSites line, s.role = .className := by
    intro s hs
    obtain ⟨r, _, rfl⟩ := of_mem_classSites hs
    rfl
  have hnamespace : ∀ s ∈ namespaceSites line, s.role = .namespaceName := by
    intro s hs
    obtain ⟨r, _, rfl⟩ := of_mem_namespaceSites hs
    rfl
  have henum : ∀ s ∈ enumSites line, s.role = .enumName := by
    intro s hs
    obtain ⟨e, _, _, rfl⟩ := of_mem_enumSites hs
    rfl
  have hvalue : ∀ s ∈ enumValues o line, s.role = .enumValue := by
    intro s hs
    obtain ⟨_, _, hs⟩ := isEnumerator_of_enumValues hs
    exact hs.role
  have hvariable : (declaredSites line).filter (·.role = .variableName) = declaredSites line :=
    List.filter_eq_self.mpr fun s hs => decide_eq_true (role_of_mem_declaredSites hs)
  rw [classify_eq h, List.filter_append, List.filter_append, List.filter_append, List.filter_append,
    hother hclass (by decide), hother hnamespace (by decide), hother henum (by decide),
    hother hvalue (by decide), hvariable, List.nil_append, List.append_nil, List.append_nil,
    List.append_nil]

/-- The sites are those of the declared runs, from left to right, and a site is global when no
white space stands before the longest qualifier of its name. -/
def AreVariablesOf (line : Text) (sites : List Site) : Prop :=
  ∃ rs : List Span, (∀ r, r ∈ rs ↔ r.IsDeclared line) ∧ rs.Pairwise (fun r s => r.stop ≤ s.start) ∧
    List.Forall₂ (fun r s => Names s r line ∧ ∃ p, IsLeast (qualifierStarts line r.start) p ∧
      s.context.isGlobal = !Text.hasSpace (line.take p)) rs sites

/-- The variables of a line that is not skipped are exactly its declared runs. -/
theorem variables_of_line {o : ClassifierOptions} {line : Text} (h : isSkipped o line = false) :
    AreVariablesOf line ((classify o line).filter (·.role = .variableName)) := by
  refine ⟨(declaredCandidates line).map (·.name), ?_, ?_, ?_⟩
  · intro r
    rw [List.mem_map]
    constructor
    · rintro ⟨c, hc, rfl⟩
      exact (mem_declaredCandidates hc).2
    · exact exists_declaredCandidate
  · exact List.pairwise_map.mpr (pairwise_declaredCandidates line)
  · rw [filter_classify h, declaredSites_eq, List.forall₂_map_left_iff, List.forall₂_map_right_iff,
      List.forall₂_same]
    intro c hc
    exact ⟨⟨rfl, rfl⟩, c.start, (mem_declaredCandidates hc).1.least, rfl⟩

/-- A qualifier at the end of a word, a keyword as a value, and both qualifiers with more blanks. -/
theorem variables_of_line_qualified :
    isSkipped {} (bytes "xconst y = true; const  bool kbOk ;") = false ∧
    ((classify {} (bytes "xconst y = true; const  bool kbOk ;")).filter
        (·.role = .variableName)).map (fun s => (s.name, s.context.isGlobal)) =
      [(bytes "y", true), (bytes "kbOk", false)] ∧
    AreVariablesOf (bytes "xconst y = true; const  bool kbOk ;")
      ((classify {} (bytes "xconst y = true; const  bool kbOk ;")).filter
        (·.role = .variableName)) :=
  ⟨by decide, by decide +kernel, variables_of_line (by decide)⟩

end LineReview.Classifier
