import LineReview.Proofs.Classifier.Variables
import LineReview.Proofs.Text.Indentation

/-!
# Blanks before a line

Blanks in front of a line move all its sites and make its variables local, and
change nothing else (`classify_prepend`). No expression matches before a blank, so
every search goes through the blanks first and is then the search of the line
itself, its offsets counted from further left (`searchWord_prepend`,
`candidates_prepend`). Where something is looked at backwards, it is what stands
before a name: blanks in front of that are like the beginning of the line
(`makesOperand_prepend`).
-/

namespace LineReview.Classifier

open Text (IsBlanks IsSolid)

/-! ## Ranges -/

section Ranges

variable (front line : Text)

theorem drop_prepend (n : Nat) : (front ++ line).drop (n + front.length) = line.drop n := by
  rw [Nat.add_comm, List.drop_length_add_append]

theorem take_prepend (n : Nat) : (front ++ line).take (n + front.length) = front ++ line.take n := by
  rw [Nat.add_comm, List.take_length_add_append]

theorem Span.of_prepend (r : Span) : (r.shift front.length).of (front ++ line) = r.of line := by
  rw [Span.of, Span.of, Text.slice, Text.slice, Span.shift, drop_prepend,
    Nat.add_sub_add_right]

theorem Span.contains_shift (r : Span) (n i : Nat) : (r.shift n).contains (i + n) = r.contains i := by
  simp [Span.contains, Span.shift]

theorem Span.overlaps_shift (r s : Span) (n : Nat) :
    (r.shift n).overlaps (s.shift n) = r.overlaps s := by
  simp [Span.overlaps, Span.shift]

theorem braceBody?_prepend (start : Nat) :
    braceBody? (front ++ line) (start + front.length) =
      (braceBody? line start).map (Span.shift front.length) := by
  unfold braceBody?
  rw [drop_prepend, Option.map_map]
  refine Option.map_congr ?_
  intro i _
  have hbody : start + front.length + i + 1 = start + i + 1 + front.length := by omega
  dsimp only [Function.comp_apply, Span.shift]
  rw [hbody, drop_prepend]
  exact congrArg (Span.mk _) (Nat.add_right_comm _ _ _)

end Ranges

/-! ## Searches -/

/-- Nothing is found in front of a blank. -/
def NeedsWord {α : Type} (at? : Text → Option α) : Prop :=
  ∀ {b : UInt8}, Text.isBlank b = true → ∀ t, at? (b :: t) = none

section Searches

variable {α : Type} {at? : Text → Option α} {w : Text}

theorem keywordAt_blank {k : String} (hk : IsSolid (bytes k)) (hne : bytes k ≠ []) :
    NeedsWord (keywordAt k) := by
  intro b hb t
  exact keywordAt_of_strip? (Text.strip?_blank hb hk hne t)

theorem wordAt_blank : NeedsWord wordAt := by
  intro b hb t
  unfold wordAt
  rw [List.takeWhile_cons_of_neg (Bool.eq_false_iff.mp (isWordByte_of_isBlank hb))]
  rfl

theorem needsWord_namedAt {k : String} (hk : IsSolid (bytes k)) (hne : bytes k ≠ []) :
    NeedsWord (namedAt k) := by
  intro b hb t
  rw [namedAt, keywordAt_blank hk hne hb]
  rfl

theorem needsWord_enumAt : NeedsWord enumAt := by
  intro b hb t
  rw [enumAt, keywordAt_blank (by decide) (by decide) hb]
  rfl

theorem needsWord_recordAt : NeedsWord recordAt := by
  intro b hb t
  rw [recordAt, keywordAt_blank (by decide) (by decide) hb,
    keywordAt_blank (by decide) (by decide) hb]
  rfl

theorem needsWord_candidateAt : NeedsWord candidateAt := by
  intro b hb t
  rw [candidateAt_eq, boolAssignedAt, keywordAt_blank (by decide) (by decide) hb,
    keywordAt_blank (by decide) (by decide) hb, assignedAt, wordAt_blank hb]
  rfl

theorem searchWord_offset (afterWord : Bool) (offset n : Nat) (t : Text) :
    searchWord at? afterWord (offset + n) t =
      (searchWord at? afterWord offset t).map fun m => (m.1 + n, m.2) := by
  induction t generalizing afterWord offset with
  | nil => rfl
  | cons b t ih =>
      rw [searchWord, searchWord]
      split
      · rfl
      · rw [Nat.add_right_comm, ih]

theorem searchWord_prepend (h : NeedsWord at?) (hw : IsBlanks w) (offset : Nat) (t : Text) :
    searchWord at? false offset (w ++ t) = searchWord at? false (offset + w.length) t := by
  induction w generalizing offset with
  | nil => rfl
  | cons b w ih =>
      have hb := hw b List.mem_cons_self
      rw [List.cons_append, searchWord, h hb, ite_self, isWordByte_of_isBlank hb, ih hw.tail,
        List.length_cons, Nat.add_assoc, Nat.add_comm 1]

/-- What a search of the line finds, counted from the blanks on. -/
theorem map_searchWord_prepend {β : Type} (h : NeedsWord at?) (hw : IsBlanks w)
    {place : Nat × α → β} {move : β → β} (hmove : ∀ m, place (m.1 + w.length, m.2) = move (place m))
    (line : Text) :
    (searchWord at? false 0 (w ++ line)).map place =
      ((searchWord at? false 0 line).map place).map move := by
  rw [searchWord_prepend h hw, searchWord_offset, Option.map_map, Option.map_map]
  exact Option.map_congr fun m _ => hmove m

theorem Span.shift_add (r : Span) (i n : Nat) : r.shift (i + n) = (r.shift i).shift n := by
  simp only [Span.shift, Nat.add_assoc]

theorem className?_prepend (hw : IsBlanks w) (line : Text) :
    className? (w ++ line) = (className? line).map (Span.shift w.length) :=
  map_searchWord_prepend (needsWord_namedAt (by decide) (by decide)) hw
    (fun m => m.2.shift_add m.1 _) line

theorem namespaceName?_prepend (hw : IsBlanks w) (line : Text) :
    namespaceName? (w ++ line) = (namespaceName? line).map (Span.shift w.length) :=
  map_searchWord_prepend (needsWord_namedAt (by decide) (by decide)) hw
    (fun m => m.2.shift_add m.1 _) line

/-- An enum whose name stands further right. -/
def EnumHead.shift (n : Nat) (e : EnumHead) : EnumHead := { e with name := e.name.shift n }

theorem enum?_prepend (hw : IsBlanks w) (line : Text) :
    enum? (w ++ line) = (enum? line).map (EnumHead.shift w.length) :=
  map_searchWord_prepend needsWord_enumAt hw
    (fun m => congrArg (EnumHead.mk m.2.isScoped) (m.2.name.shift_add m.1 _)) line

theorem recordBrace?_prepend (hw : IsBlanks w) (line : Text) :
    recordBrace? (w ++ line) = (recordBrace? line).map (· + w.length) :=
  map_searchWord_prepend needsWord_recordAt hw (fun m => Nat.add_right_comm m.1 _ m.2) line

theorem recordBody?_prepend (hw : IsBlanks w) (line : Text) :
    recordBody? (w ++ line) = (recordBody? line).map (Span.shift w.length) := by
  rw [recordBody?, recordBody?, recordBrace?_prepend hw]
  cases recordBrace? line with
  | none => rfl
  | some n => exact braceBody?_prepend w line n

theorem enumBody?_prepend (hw : IsBlanks w) (line : Text) :
    enumBody? (w ++ line) = (enumBody? line).map (Span.shift w.length) := by
  rw [enumBody?, enumBody?, enum?_prepend hw]
  cases enum? line with
  | none => rfl
  | some e => exact braceBody?_prepend w line e.name.stop

end Searches

/-! ## Candidates -/

/-- A candidate that stands further right. -/
def Candidate.shift (n : Nat) (c : Candidate) : Candidate :=
  ⟨c.start + n, c.name.shift n, c.stop + n⟩

section Candidates

variable {w : Text}

theorem searchCandidate_offset (offset n : Nat) (t : Text) :
    searchCandidate (offset + n) t = (searchCandidate offset t).map (Candidate.shift n) := by
  induction t generalizing offset with
  | nil => rfl
  | cons b t ih =>
      rw [searchCandidate, searchCandidate]
      split
      · rename_i c _
        rw [Option.map_some, Candidate.shift, Span.shift_add, Nat.add_assoc c.stop]
      · rw [Nat.add_right_comm, ih]

theorem searchCandidate_prepend (hw : IsBlanks w) (offset : Nat) (t : Text) :
    searchCandidate offset (w ++ t) = searchCandidate (offset + w.length) t := by
  induction w generalizing offset with
  | nil => rfl
  | cons b w ih =>
      rw [List.cons_append, searchCandidate, needsWord_candidateAt (hw b List.mem_cons_self)]
      dsimp only
      rw [ih hw.tail, List.length_cons, Nat.add_assoc, Nat.add_comm 1]

theorem candidatesFrom_offset (fuel offset n : Nat) (t : Text) :
    candidatesFrom fuel (offset + n) t = (candidatesFrom fuel offset t).map (Candidate.shift n) := by
  induction fuel generalizing offset t with
  | zero => rfl
  | succ fuel ih =>
      rw [candidatesFrom, candidatesFrom, searchCandidate_offset]
      cases searchCandidate offset t with
      | none => rfl
      | some c =>
          dsimp only [Option.map_some, Candidate.shift]
          rw [Nat.add_sub_add_right, ih, List.map_cons, Candidate.shift]

/-- The first search goes through the blanks; from then on it is the same text. -/
theorem candidatesFrom_prepend (hw : IsBlanks w) (fuel : Nat) (t : Text) :
    candidatesFrom fuel 0 (w ++ t) = candidatesFrom fuel w.length t := by
  cases fuel with
  | zero => rfl
  | succ fuel =>
      rw [candidatesFrom, candidatesFrom, searchCandidate_prepend hw, Nat.zero_add]
      cases hfirst : searchCandidate w.length t with
      | none => rfl
      | some c =>
          obtain ⟨_, hlt, _⟩ := range_searchCandidate hfirst
          obtain ⟨k, hk⟩ := Nat.exists_eq_add_of_lt hlt
          dsimp only
          rw [Nat.sub_zero, hk, Nat.add_assoc, List.drop_length_add_append, Nat.add_sub_cancel_left]

theorem candidates_prepend (hw : IsBlanks w) (line : Text) :
    candidates (w ++ line) = (candidates line).map (Candidate.shift w.length) := by
  have hlength : line.length ≤ (w ++ line).length := by
    rw [List.length_append]
    omega
  rw [candidates, candidatesFrom_prepend hw, candidatesFrom_fuel w.length hlength (Nat.le_refl _),
    ← Nat.zero_add w.length, candidatesFrom_offset, Nat.zero_add]
  rfl

end Candidates

/-! ## What stands before a name -/

section Operands

variable {w : Text}

theorem solid_of_mem_undeclared : ∀ k ∈ undeclared, IsSolid k := by decide

/-- Read backwards, a text goes on with the blanks in front, which decide nothing that the
beginning of the text would not decide the same way. -/
theorem any_head?_prepend (hw : IsBlanks w) {p : UInt8 → Bool}
    (hp : ∀ b, Text.isBlank b = true → p b = false) (u : Text) :
    (u ++ w.reverse).head?.any p = u.head?.any p := by
  cases u with
  | cons b u => rfl
  | nil =>
      cases hhead : w.reverse with
      | nil => rfl
      | cons b v => exact hp b (hw b (List.mem_reverse.mp (hhead ▸ List.mem_cons_self)))

theorem endsInUndeclared_eq (t : Text) :
    endsInUndeclared t = undeclared.any fun k =>
      t.endsWith k && !(t.reverse.drop k.length).head?.any isWordByte := by
  unfold endsInUndeclared
  congr
  funext k
  cases t.reverse.drop k.length <;> rfl

theorem endsInUndeclared_prepend (hw : IsBlanks w) (t : Text) :
    endsInUndeclared (w ++ t) = endsInUndeclared t := by
  rw [endsInUndeclared_eq, endsInUndeclared_eq, Bool.eq_iff_iff, List.any_eq_true, List.any_eq_true]
  refine exists_congr fun k => and_congr_right fun hk => ?_
  rw [Text.endsWith_prepend hw (solid_of_mem_undeclared k hk), Bool.and_eq_true, Bool.and_eq_true]
  refine and_congr_right fun hends => ?_
  have hlength : k.length ≤ t.reverse.length := by
    rw [List.length_reverse]
    exact (Text.endsWith_iff_suffix.mp hends).length_le
  rw [List.reverse_append, List.drop_append_of_le_length hlength,
    any_head?_prepend hw fun _ => isWordByte_of_isBlank]

theorem makesOperand_eq {t rest : Text} {b : UInt8} (h : t.reverse = b :: rest) :
    makesOperand t = ((if b = 47 then !rest.head?.any (fun c => c == 47 || c == 42)
      else operators.contains b) || endsInUndeclared t) := by
  unfold makesOperand
  rw [h]
  by_cases hslash : b = 47
  · subst hslash
    rw [if_pos rfl]
    refine congrArg (· || endsInUndeclared t) ?_
    cases rest with
    | nil => rfl
    | cons c rest =>
        by_cases hslash : c = 47
        · subst hslash
          rfl
        · by_cases hstar : c = 42
          · subst hstar
            rfl
          · simp [hslash, hstar]
  · rw [if_neg hslash]
    simp

/-- Blanks before what stands before a name are like the beginning of the line. -/
theorem makesOperand_prepend (hw : IsBlanks w) {t : Text} (hne : t ≠ []) :
    makesOperand (w ++ t) = makesOperand t := by
  obtain ⟨b, rest, hreverse⟩ := List.exists_cons_of_ne_nil (mt List.reverse_eq_nil_iff.mp hne)
  have hreverse' : (w ++ t).reverse = b :: (rest ++ w.reverse) := by
    rw [List.reverse_append, hreverse, List.cons_append]
  have hmark : ∀ c, Text.isBlank c = true → (c == 47 || c == 42) = false := by
    intro c hc
    rcases Text.eq_of_isBlank hc with rfl | rfl | rfl | rfl | rfl <;> rfl
  rw [makesOperand_eq hreverse, makesOperand_eq hreverse', any_head?_prepend hw hmark,
    endsInUndeclared_prepend hw]

theorem declares_prepend (hw : IsBlanks w) {line : Text} {c : Candidate} (hpos : 0 < c.stop) :
    declares (w ++ line) (c.shift w.length) = declares line c := by
  have hstop : c.stop + w.length - 1 = c.stop - 1 + w.length := by omega
  have hbefore : makesOperand (Text.trimRight ((w ++ line).take (c.name.start + w.length))) =
      makesOperand (Text.trimRight (line.take c.name.start)) := by
    rw [take_prepend, Text.trimRight_prepend hw]
    split
    · rename_i hnil
      rw [hnil]
    · rename_i hne
      exact makesOperand_prepend hw hne
  unfold declares
  dsimp only [Candidate.shift]
  rw [Span.of_prepend, hstop, drop_prepend]
  dsimp only [Span.shift]
  rw [hbefore]

end Operands

/-! ## Sites -/

/-- The site on a line with `n` blanks more in front: its column is moved, and a variable is no
longer global. -/
def Site.indented (n : Nat) (s : Site) : Site :=
  { s with
    col := s.col + n
    context := if s.role = .variableName then { s.context with isGlobal := false } else s.context }

section Sites

variable {w : Text}

theorem isSkipped_prepend (hw : IsBlanks w) (o : ClassifierOptions) (line : Text) :
    isSkipped o (w ++ line) = isSkipped o line := by
  have husing : isUsingDirective (w ++ line) = isUsingDirective line := by
    rw [isUsingDirective, isUsingDirective, List.dropWhile_append_of_pos hw]
  rw [isSkipped, isSkipped, husing, Text.trimLeft_prepend hw]

theorem enumeratorsFrom_offset (offset n : Nat) (items : List Text) :
    enumeratorsFrom (offset + n) items = (enumeratorsFrom offset items).map (Site.indented n) := by
  induction items generalizing offset with
  | nil => rfl
  | cons item items ih =>
      have hrest : offset + n + item.length + 1 = offset + item.length + 1 + n := by omega
      rw [enumeratorsFrom, enumeratorsFrom, hrest, ih]
      cases enumeratorAt item with
      | none => rfl
      | some r =>
          dsimp only [List.map_cons, Site.indented, Span.shift]
          rw [← Nat.add_assoc, Int.natCast_add]
          rfl

theorem indented_siteAt {role : Role} (hrole : role ≠ .variableName) (line : Text) (r : Span) :
    siteAt (w ++ line) role (r.shift w.length) = Site.indented w.length (siteAt line role r) := by
  have hother : (siteAt line role r).role ≠ .variableName := hrole
  unfold Site.indented
  rw [if_neg hother, siteAt, Span.of_prepend]
  rfl

theorem map_siteAt_prepend {role : Role} (hrole : role ≠ .variableName) (line : Text)
    (name? : Option Span) :
    (name?.map (Span.shift w.length)).toList.map (siteAt (w ++ line) role) =
      (name?.toList.map (siteAt line role)).map (Site.indented w.length) := by
  cases name? with
  | none => rfl
  | some r => exact congrArg (fun s => [s]) (indented_siteAt hrole line r)

theorem classSites_prepend (hw : IsBlanks w) (line : Text) :
    classSites (w ++ line) = (classSites line).map (Site.indented w.length) := by
  rw [classSites, className?_prepend hw, map_siteAt_prepend (by decide)]
  rfl

theorem namespaceSites_prepend (hw : IsBlanks w) (line : Text) :
    namespaceSites (w ++ line) = (namespaceSites line).map (Site.indented w.length) := by
  rw [namespaceSites, namespaceName?_prepend hw, map_siteAt_prepend (by decide)]
  rfl

theorem enumSites_prepend (hw : IsBlanks w) (line : Text) :
    enumSites (w ++ line) = (enumSites line).map (Site.indented w.length) := by
  rw [enumSites, enumSites, enum?_prepend hw]
  cases enum? line with
  | none => rfl
  | some e =>
      obtain ⟨isScoped, name⟩ := e
      cases isScoped with
      | true => rfl
      | false => exact congrArg (fun s => [s]) (indented_siteAt (by decide) line name)

theorem enumValues_prepend (hw : IsBlanks w) (o : ClassifierOptions) (line : Text) :
    enumValues o (w ++ line) = (enumValues o line).map (Site.indented w.length) := by
  rw [enumValues, enumValues, enumBody?_prepend hw]
  split
  · cases enumBody? line with
    | none => rfl
    | some body =>
        rw [Option.map_some, Option.toList_some, Option.toList_some, List.flatMap_singleton,
          List.flatMap_singleton, enumerators, enumerators, Span.of_prepend]
        exact enumeratorsFrom_offset _ _ _
  · rfl

theorem typeNames_prepend (hw : IsBlanks w) (line : Text) :
    typeNames (w ++ line) = (typeNames line).map (Span.shift w.length) := by
  rw [typeNames, typeNames, className?_prepend hw, namespaceName?_prepend hw, enum?_prepend hw,
    List.map_append, List.map_append]
  cases className? line <;> cases namespaceName? line <;> cases enum? line <;> rfl

theorem isKept_prepend (hw : IsBlanks w) {line : Text} {types : List Span} {enumBody : Option Span}
    {c : Candidate} (hpos : 0 < c.stop) :
    isKept (w ++ line) (types.map (Span.shift w.length)) (enumBody.map (Span.shift w.length))
      (c.shift w.length) = isKept line types enumBody c := by
  have hbody : (enumBody.map (Span.shift w.length)).any
      (·.contains (c.shift w.length).name.start) = enumBody.any (·.contains c.name.start) := by
    cases enumBody with
    | none => rfl
    | some body => exact body.contains_shift _ _
  have htypes : (types.map (Span.shift w.length)).any (·.overlaps (c.shift w.length).name) =
      types.any (·.overlaps c.name) := by
    rw [List.any_map]
    exact congrArg types.any (funext fun r => r.overlaps_shift c.name w.length)
  rw [isKept, isKept, declares_prepend hw hpos, hbody, htypes]

theorem variableSite_prepend (hw : IsBlanks w) (hne : w ≠ []) (line : Text) (c : Candidate) :
    variableSite (w ++ line) (c.shift w.length) =
      Site.indented w.length (variableSite line c) := by
  have hrecord : (recordBody? (w ++ line)).any (·.contains (c.name.start + w.length)) =
      (recordBody? line).any (·.contains c.name.start) := by
    rw [recordBody?_prepend hw]
    cases recordBody? line with
    | none => rfl
    | some body => exact body.contains_shift _ _
  have hword : ∀ k, IsSolid k → k ≠ [] → Text.hasInfix k (w ++ line) = Text.hasInfix k line :=
    fun k hk hkne => Text.hasInfix_prepend hw hk hkne line
  unfold variableSite Site.indented
  dsimp only [Candidate.shift]
  rw [Span.of_prepend, if_pos rfl, take_prepend, Text.hasSpace_prepend hw hne,
    hword _ (by decide) (by decide), hword _ (by decide) (by decide),
    hword _ (by decide) (by decide)]
  dsimp only [Span.shift]
  rw [hrecord, Int.natCast_add]
  rfl

theorem declaredSites_prepend (hw : IsBlanks w) (hne : w ≠ []) (line : Text) :
    declaredSites (w ++ line) = (declaredSites line).map (Site.indented w.length) := by
  have hkept : ∀ c ∈ candidates line,
      (isKept (w ++ line) (typeNames (w ++ line)) (enumBody? (w ++ line)) ∘
        Candidate.shift w.length) c = isKept line (typeNames line) (enumBody? line) c := by
    intro c hc
    rw [typeNames_prepend hw, enumBody?_prepend hw]
    exact isKept_prepend hw ((candidates_exact line).1 c hc).pos
  rw [declaredSites_eq, declaredSites_eq, declaredCandidates, declaredCandidates,
    candidates_prepend hw, List.filter_map, List.filter_congr hkept, List.map_map, List.map_map]
  exact List.map_congr_left fun c _ => variableSite_prepend hw hne line c

/-- Blanks in front of a line, such as spaces and tabs, move every site by their number and make
every variable local. They change nothing else. -/
theorem classify_prepend (hw : IsBlanks w) (hne : w ≠ []) (o : ClassifierOptions) (line : Text) :
    classify o (w ++ line) = (classify o line).map (Site.indented w.length) := by
  cases hskip : isSkipped o line with
  | true =>
      rw [classify_of_isSkipped hskip, classify_of_isSkipped (isSkipped_prepend hw o line ▸ hskip)]
      rfl
  | false =>
      rw [classify_eq hskip, classify_eq (isSkipped_prepend hw o line ▸ hskip),
        classSites_prepend hw, declaredSites_prepend hw hne, namespaceSites_prepend hw,
        enumSites_prepend hw, enumValues_prepend hw, List.map_append, List.map_append,
        List.map_append, List.map_append]

end Sites

/-- A global variable behind a keyword, and what a tab and a space before it do. -/
theorem classify_prepend_tab :
    IsBlanks [9, 32] ∧ ([9, 32] : Text) ≠ [] ∧
    (classify {} (bytes "bool kbOn = x;")).map (fun s => (s.col, s.context.isGlobal)) =
      [(5, true)] ∧
    (classify {} ([9, 32] ++ bytes "bool kbOn = x;")).map (fun s => (s.col, s.context.isGlobal)) =
      [(7, false)] ∧
    classify {} ([9, 32] ++ bytes "bool kbOn = x;") =
      (classify {} (bytes "bool kbOn = x;")).map (Site.indented 2) :=
  ⟨by decide, by decide, by decide +kernel, by decide +kernel,
    classify_prepend (by decide) (by decide) {} _⟩

end LineReview.Classifier
