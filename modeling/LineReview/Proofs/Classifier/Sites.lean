import LineReview.Classifier.Lexical
import Mathlib.Data.List.TakeWhile

/-!
# Where sites stand

Every site of a line names a word that stands on the line, and its column is the
offset of that word. The expressions look at what remains of the line and find
words as ranges in it; `IsWordIn` says that a range holds a word. It is kept when
more text is put in front, which is how a search moves along the line
(`IsWordIn.shift`) and how the items of an enum body are counted up
(`standsOn_enumeratorsFrom`).
-/

namespace LineReview

theorem Text.eq_append_of_strip? {t p r : Text} (h : Text.strip? t p = some r) : t = p ++ r := by
  induction p generalizing t with
  | nil =>
      rw [Text.strip?] at h
      exact Option.some.inj h
  | cons c p ih =>
      cases t with
      | nil => cases h
      | cons b t =>
          rw [Text.strip?] at h
          split at h
          · rename_i hbc
            rw [beq_iff_eq.mp hbc, ih h]
            rfl
          · cases h

theorem Text.lt_of_indexOf? {c : UInt8} {t : Text} {i : Nat} (h : Text.indexOf? c t = some i) :
    i < t.length := by
  induction t generalizing i with
  | nil => cases h
  | cons b t ih =>
      rw [List.length_cons]
      rw [Text.indexOf?] at h
      split at h
      · cases h
        omega
      · obtain ⟨j, hj, rfl⟩ := Option.map_eq_some_iff.mp h
        have := ih hj
        omega

namespace Classifier

/-! ## Words -/

/-- The range holds a word of the text. -/
def Span.IsWordIn (r : Span) (t : Text) : Prop :=
  ∃ before w after, t = before ++ (w ++ after) ∧ w ≠ [] ∧ (∀ b ∈ w, isWordByte b = true) ∧
    r = ⟨before.length, before.length + w.length⟩

namespace Span.IsWordIn

theorem of_eq {r : Span} {t : Text} (h : r.IsWordIn t) :
    ∃ before after, t = before ++ (r.of t ++ after) ∧ r.start = before.length ∧ r.of t ≠ [] ∧
      ∀ b ∈ r.of t, isWordByte b = true := by
  obtain ⟨before, w, after, rfl, hne, hword, rfl⟩ := h
  have hof : Span.of ⟨before.length, before.length + w.length⟩ (before ++ (w ++ after)) = w := by
    rw [Span.of, Text.slice, List.drop_left, Nat.add_sub_cancel_left, List.take_left]
  rw [hof]
  exact ⟨before, after, rfl, rfl, hne, hword⟩

/-- Text in front moves a word. -/
theorem shift {r : Span} {t : Text} (h : r.IsWordIn t) (front : Text) :
    (r.shift front.length).IsWordIn (front ++ t) ∧
      (r.shift front.length).of (front ++ t) = r.of t := by
  obtain ⟨before, w, after, rfl, hne, hword, rfl⟩ := h
  refine ⟨⟨front ++ before, w, after, by simp, hne, hword, ?_⟩, ?_⟩
  · rw [Span.shift, List.length_append, Nat.add_comm before.length,
      Nat.add_right_comm before.length, Nat.add_comm before.length front.length]
  · have hstart : before.length + front.length = (front ++ before).length := by
      rw [List.length_append, Nat.add_comm]
    have hwidth : before.length + w.length + front.length - (before.length + front.length) =
        w.length := by
      omega
    have hwidth' : before.length + w.length - before.length = w.length := by omega
    rw [Span.of, Span.of, Span.shift, Text.slice, Text.slice, hwidth, hwidth', hstart,
      ← List.append_assoc, List.drop_left, List.drop_left]

/-- Text behind it does not move a word. -/
theorem append {r : Span} {t : Text} (h : r.IsWordIn t) (rest : Text) :
    r.IsWordIn (t ++ rest) ∧ r.of (t ++ rest) = r.of t := by
  obtain ⟨before, w, after, rfl, hne, hword, rfl⟩ := h
  refine ⟨⟨before, w, after ++ rest, by simp, hne, hword, rfl⟩, ?_⟩
  rw [Span.of, Span.of, Text.slice, Text.slice, List.append_assoc, List.append_assoc,
    List.drop_left, List.drop_left, Nat.add_sub_cancel_left, List.take_left, List.take_left]

end Span.IsWordIn

theorem wordAt_eq_some {t w rest : Text} (h : wordAt t = some (w, rest)) :
    t = w ++ rest ∧ w ≠ [] ∧ ∀ b ∈ w, isWordByte b = true := by
  unfold wordAt at h
  dsimp only at h
  split at h
  · cases h
  · rename_i hne
    cases h
    refine ⟨List.takeWhile_append_dropWhile.symm, fun hnil => hne (List.isEmpty_iff.mpr hnil), ?_⟩
    intro b hb
    exact List.mem_takeWhile_imp hb

theorem suffix_of_keywordAt {k : String} {t r : Text} (h : keywordAt k t = some r) : r <:+ t := by
  unfold keywordAt at h
  obtain ⟨s, hstrip, h⟩ := Option.bind_eq_some_iff.mp h
  rw [Text.eq_append_of_strip? hstrip]
  cases s with
  | nil => cases h
  | cons b s =>
      dsimp only at h
      split at h
      · cases h
        exact (List.dropWhile_suffix _).trans (List.suffix_append _ _)
      · cases h

theorem isWordIn_spanOf {t r w rest : Text} (hr : r <:+ t) (hw : wordAt r = some (w, rest)) :
    (spanOf t r w).IsWordIn t := by
  obtain ⟨before, rfl⟩ := hr
  obtain ⟨rfl, hne, hword⟩ := wordAt_eq_some hw
  refine ⟨before, w, rest, rfl, hne, hword, ?_⟩
  rw [spanOf, List.length_append, Nat.add_sub_cancel]

theorem isWordIn_namedAt {k : String} {t : Text} {r : Span} (h : namedAt k t = some r) :
    r.IsWordIn t := by
  unfold namedAt at h
  obtain ⟨s, hkeyword, h⟩ := Option.bind_eq_some_iff.mp h
  obtain ⟨⟨w, rest⟩, hword, h⟩ := Option.bind_eq_some_iff.mp h
  cases h
  exact isWordIn_spanOf (suffix_of_keywordAt hkeyword) hword

/-! ## Searches -/

theorem searchWord_eq_some {α : Type} {at? : Text → Option α} {afterWord : Bool} {offset i : Nat}
    {t : Text} {m : α} (h : searchWord at? afterWord offset t = some (i, m)) :
    ∃ before rest, t = before ++ rest ∧ i = offset + before.length ∧ at? rest = some m := by
  induction t generalizing afterWord offset with
  | nil => cases h
  | cons b t ih =>
      rw [searchWord] at h
      split at h
      · rename_i m' hm
        cases h
        split at hm
        · cases hm
        · exact ⟨[], b :: t, rfl, rfl, hm⟩
      · obtain ⟨before, rest, rfl, rfl, hm⟩ := ih h
        refine ⟨b :: before, rest, rfl, ?_, hm⟩
        rw [List.length_cons]
        omega

theorem isWordIn_searchWord {k : String} {line : Text} {i : Nat} {r : Span}
    (h : searchWord (namedAt k) false 0 line = some (i, r)) : (r.shift i).IsWordIn line := by
  obtain ⟨before, rest, rfl, rfl, hnamed⟩ := searchWord_eq_some h
  rw [Nat.zero_add]
  exact ((isWordIn_namedAt hnamed).shift before).1

theorem isWordIn_className? {line : Text} {r : Span} (h : className? line = some r) :
    r.IsWordIn line := by
  obtain ⟨⟨i, s⟩, hsearch, rfl⟩ := Option.map_eq_some_iff.mp h
  exact isWordIn_searchWord hsearch

theorem isWordIn_namespaceName? {line : Text} {r : Span} (h : namespaceName? line = some r) :
    r.IsWordIn line := by
  obtain ⟨⟨i, s⟩, hsearch, rfl⟩ := Option.map_eq_some_iff.mp h
  exact isWordIn_searchWord hsearch

theorem isWordIn_enumAt {t : Text} {e : EnumHead} (h : enumAt t = some e) : e.name.IsWordIn t := by
  unfold enumAt at h
  obtain ⟨r, hkeyword, h⟩ := Option.bind_eq_some_iff.mp h
  have hr := suffix_of_keywordAt hkeyword
  dsimp only at h
  rw [Option.orElse_eq_or, Option.or_eq_some_iff] at h
  rcases h with hscoped | ⟨_, hplain⟩
  · obtain ⟨s, hs, hscoped⟩ := Option.bind_eq_some_iff.mp hscoped
    obtain ⟨⟨w, rest⟩, hword, hscoped⟩ := Option.bind_eq_some_iff.mp hscoped
    cases hscoped
    refine isWordIn_spanOf (List.IsSuffix.trans ?_ hr) hword
    rw [Option.orElse_eq_or, Option.or_eq_some_iff] at hs
    rcases hs with hs | ⟨_, hs⟩
    · exact suffix_of_keywordAt hs
    · exact suffix_of_keywordAt hs
  · obtain ⟨⟨w, rest⟩, hword, hplain⟩ := Option.bind_eq_some_iff.mp hplain
    cases hplain
    exact isWordIn_spanOf hr hword

theorem isWordIn_enum? {line : Text} {e : EnumHead} (h : enum? line = some e) :
    e.name.IsWordIn line := by
  obtain ⟨⟨i, e'⟩, hsearch, rfl⟩ := Option.map_eq_some_iff.mp h
  obtain ⟨before, rest, rfl, rfl, henum⟩ := searchWord_eq_some hsearch
  rw [Nat.zero_add]
  exact ((isWordIn_enumAt henum).shift before).1

/-! ## Variables -/

/-- A candidate names a word and ends within the text, at least one byte further on. -/
structure Candidate.IsIn (c : Candidate) (t : Text) : Prop where
  word : c.name.IsWordIn t
  pos : 0 < c.stop
  le : c.stop ≤ t.length

theorem isIn_assignedAt {t r : Text} {c : Candidate} (hr : r <:+ t) (h : assignedAt t r = some c) :
    c.IsIn t := by
  unfold assignedAt at h
  obtain ⟨⟨w, s⟩, hword, h⟩ := Option.bind_eq_some_iff.mp h
  dsimp only at h
  cases hrest : s.dropWhile Text.isBlank with
  | nil =>
      rw [hrest] at h
      cases h
  | cons b u =>
      rw [hrest] at h
      dsimp only at h
      split at h
      · cases h
        obtain ⟨rfl, _⟩ := wordAt_eq_some hword
        have hsuffix : b :: u <:+ t :=
          (hrest ▸ List.dropWhile_suffix _).trans ((List.suffix_append w s).trans hr)
        have hlength := hsuffix.length_le
        rw [List.length_cons] at hlength
        exact ⟨isWordIn_spanOf hr hword, by dsimp only; omega, by dsimp only; omega⟩
      · cases h

theorem isIn_candidateAt {t : Text} {c : Candidate} (h : candidateAt t = some c) : c.IsIn t := by
  have hafter : ∀ r, r <:+ t → ∀ c,
      ((keywordAt "bool" r).bind (assignedAt t)).orElse (fun _ => assignedAt t r) = some c →
        c.IsIn t := by
    intro r hr c h
    rw [Option.orElse_eq_or, Option.or_eq_some_iff] at h
    rcases h with h | ⟨_, h⟩
    · obtain ⟨s, hs, h⟩ := Option.bind_eq_some_iff.mp h
      exact isIn_assignedAt ((suffix_of_keywordAt hs).trans hr) h
    · exact isIn_assignedAt hr h
  unfold candidateAt at h
  dsimp only at h
  rw [Option.orElse_eq_or, Option.or_eq_some_iff] at h
  rcases h with h | ⟨_, h⟩
  · obtain ⟨r, hr, h⟩ := Option.bind_eq_some_iff.mp h
    exact hafter r (suffix_of_keywordAt hr) c h
  · exact hafter t (List.suffix_rfl) c h

/-- The first candidate of what remains of a line behind `front`. -/
theorem isIn_searchCandidate {front t : Text} {c : Candidate}
    (h : searchCandidate front.length t = some c) :
    c.name.IsWordIn (front ++ t) ∧ front.length < c.stop ∧ c.stop ≤ (front ++ t).length := by
  induction t generalizing front with
  | nil => cases h
  | cons b t ih =>
      rw [searchCandidate] at h
      split at h
      · rename_i c' hc'
        cases h
        have hin := isIn_candidateAt hc'
        have hpos := hin.pos
        have hle := hin.le
        refine ⟨(hin.word.shift front).1, ?_, ?_⟩
        · dsimp only
          omega
        · rw [List.length_append]
          dsimp only
          omega
      · have hfront : front ++ b :: t = (front ++ [b]) ++ t := by simp
        have hlength : front.length + 1 = (front ++ [b]).length := by simp
        rw [hlength] at h
        obtain ⟨hword, hlt, hle⟩ := ih h
        rw [hfront]
        exact ⟨hword, by omega, hle⟩

/-- The search for further candidates goes on where the last one ended. -/
theorem isWordIn_candidatesFrom {fuel : Nat} (front : Text) {t : Text} {c : Candidate}
    (h : c ∈ candidatesFrom fuel front.length t) : c.name.IsWordIn (front ++ t) := by
  induction fuel generalizing front t with
  | zero => cases h
  | succ fuel ih =>
      rw [candidatesFrom] at h
      split at h
      · cases h
      · rename_i first hfirst
        obtain ⟨hword, hlt, hle⟩ := isIn_searchCandidate hfirst
        rcases List.mem_cons.mp h with rfl | h
        · exact hword
        · rw [List.length_append] at hle
          -- what the first candidate took belongs to the front of the rest
          have hfront : front ++ t =
              (front ++ t.take (first.stop - front.length)) ++
                t.drop (first.stop - front.length) := by
            rw [List.append_assoc, List.take_append_drop]
          have hlength : first.stop = (front ++ t.take (first.stop - front.length)).length := by
            rw [List.length_append, List.length_take]
            omega
          rw [hfront]
          exact ih _ (hlength ▸ h)

/-! ## Sites -/

/-- A site names a word of the line, and its column is where that word begins. -/
def StandsOn (s : Site) (line : Text) : Prop :=
  ∃ r : Span, r.IsWordIn line ∧ s.name = r.of line ∧ s.col = r.start

theorem standsOn_siteAt {line : Text} {r : Span} (h : r.IsWordIn line) (role : Role) :
    StandsOn (siteAt line role r) line :=
  ⟨r, h, rfl, rfl⟩

theorem standsOn_variableSites {line : Text} {types : List Span} {enumBody : Option Span} {s : Site}
    (h : s ∈ variableSites line types enumBody) : StandsOn s line := by
  unfold variableSites at h
  obtain ⟨c, hc, h⟩ := List.mem_filterMap.mp h
  have hword : c.name.IsWordIn line := isWordIn_candidatesFrom [] hc
  split at h
  · cases h
  · split at h
    · cases h
    · rw [← Option.some.inj h]
      exact ⟨c.name, hword, rfl, rfl⟩

theorem isWordIn_enumeratorAt {item : Text} {r : Span} (h : enumeratorAt item = some r) :
    r.IsWordIn item := by
  unfold enumeratorAt at h
  obtain ⟨⟨w, rest⟩, hword, h⟩ := Option.bind_eq_some_iff.mp h
  dsimp only at h
  split at h
  · cases h
  · cases h
    exact isWordIn_spanOf (List.dropWhile_suffix _) hword

/-- The items stand between `front` and `after`, with a comma between each two of them. -/
theorem standsOn_enumeratorsFrom {front : Text} (after : Text) {items : List Text} {s : Site}
    (h : s ∈ enumeratorsFrom front.length items) :
    StandsOn s (front ++ (Text.joinWith [44] items ++ after)) := by
  induction items generalizing front with
  | nil => cases h
  | cons item items ih =>
      -- for the other items, this one and its comma belong to the front
      have hrest : s ∈ enumeratorsFrom (front.length + item.length + 1) items →
          StandsOn s (front ++ (Text.joinWith [44] (item :: items) ++ after)) := by
        intro h
        cases items with
        | nil => cases h
        | cons next items =>
            have hlength : front.length + item.length + 1 = (front ++ item ++ [44]).length := by
              simp only [List.length_append, List.length_singleton]
            rw [hlength] at h
            have hjoin : front ++ (Text.joinWith [44] (item :: next :: items) ++ after) =
                (front ++ item ++ [44]) ++ (Text.joinWith [44] (next :: items) ++ after) := by
              simp [Text.joinWith]
            rw [hjoin]
            exact ih h
      have hjoin : ∃ more, Text.joinWith [44] (item :: items) ++ after = item ++ more := by
        cases items with
        | nil => exact ⟨after, rfl⟩
        | cons next items =>
            exact ⟨[44] ++ (Text.joinWith [44] (next :: items) ++ after), by simp [Text.joinWith]⟩
      rw [enumeratorsFrom] at h
      split at h
      · rename_i r hr
        rcases List.mem_cons.mp h with rfl | h
        · obtain ⟨more, hmore⟩ := hjoin
          have hitem := (isWordIn_enumeratorAt hr).append more
          have hshift := hitem.1.shift front
          rw [hmore]
          exact ⟨r.shift front.length, hshift.1, (hshift.2.trans hitem.2).symm, rfl⟩
        · exact hrest h
      · exact hrest h

theorem standsOn_enumerators {line : Text} {start : Nat} {body : Span} {s : Site}
    (hbody : braceBody? line start = some body) (h : s ∈ enumerators line body) :
    StandsOn s line := by
  obtain ⟨i, hi, rfl⟩ := Option.map_eq_some_iff.mp hbody
  have hlt := Text.lt_of_indexOf? hi
  rw [List.length_drop] at hlt
  -- the body lies inside the line, so what stands before it has the length of its offset
  have hfront : (line.take (start + i + 1)).length = start + i + 1 := by
    rw [List.length_take]
    omega
  unfold enumerators at h
  dsimp only at h
  rw [← hfront] at h
  have hon := standsOn_enumeratorsFrom
    ((line.drop (start + i + 1)).drop (closingOffset 1 (line.drop (start + i + 1)))) h
  rw [Text.joinWith_splitOn, Span.of, Text.slice, hfront, Nat.add_sub_cancel_left,
    List.take_append_drop, List.take_append_drop] at hon
  exact hon

/-- Every site of a line names a word that stands at its column. -/
theorem standsOn_classify {o : ClassifierOptions} {line : Text} {s : Site}
    (h : s ∈ classify o line) : StandsOn s line := by
  unfold classify at h
  split at h
  · cases h
  dsimp only at h
  rw [List.mem_append, List.mem_append, List.mem_append] at h
  rcases h with ((hclass | hvariable) | hnamespace) | henum
  · obtain ⟨r, hr, rfl⟩ := List.mem_map.mp hclass
    exact standsOn_siteAt (isWordIn_className? (Option.mem_toList.mp hr)) .className
  · exact standsOn_variableSites hvariable
  · obtain ⟨r, hr, rfl⟩ := List.mem_map.mp hnamespace
    exact standsOn_siteAt (isWordIn_namespaceName? (Option.mem_toList.mp hr)) .namespaceName
  · cases hhead : enum? line with
    | none =>
        rw [hhead] at henum
        cases henum
    | some e =>
        rw [hhead] at henum
        dsimp only at henum
        rcases List.mem_append.mp henum with hname | hvalue
        · split at hname
          · cases hname
          · rw [List.mem_singleton.mp hname]
            exact standsOn_siteAt (isWordIn_enum? hhead) .enumName
        · split at hvalue
          · rw [Option.bind_some] at hvalue
            cases hbody : braceBody? line e.name.stop with
            | none =>
                rw [hbody] at hvalue
                cases hvalue
            | some body =>
                rw [hbody] at hvalue
                exact standsOn_enumerators hbody hvalue
          · cases hvalue

end Classifier

end LineReview
