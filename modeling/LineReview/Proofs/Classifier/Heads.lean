import LineReview.Proofs.Classifier.Braces
import LineReview.Proofs.Classifier.Variables

/-!
# Heads of definitions

Classes, namespaces, enums and records are found by their heads: a keyword that
begins a word, blanks, and a name (`IsHead`). A name has a head exactly when the word
before it is the keyword (`exists_isHead`), so every search can be described by the
names that stand behind its keyword. What it finds is the first of them
(`named_eq_some_iff`, `isLeast_recordBrace?`), since nothing in a head can be taken
for the beginning of another one.

A head opens a body when the first brace or semicolon behind its name is an opening
brace (`Span.Opens`). The braces that some head with one of the keywords opens are
the `definitionBraces` of a line.
-/

namespace LineReview.Classifier

open Text (IsBlanks)

/-! ## Words of a line -/

/-- There are only words and blanks from `i` up to `j`. -/
def IsWordy (line : Text) (i j : Nat) : Prop :=
  ∀ n, i ≤ n → n < j → line.hasAt (fun b => isWordByte b || Text.isBlank b) n = true

namespace IsWordy

variable {line : Text} {i j n : Nat}

theorem trans {k : Nat} (h : IsWordy line i j) (h' : IsWordy line k n) (hk : k ≤ j) :
    IsWordy line i n := by
  intro m hlow hhigh
  rcases Nat.lt_or_ge m j with hlt | hge
  · exact h m hlow hlt
  · exact h' m (Nat.le_trans hk hge) hhigh

theorem of_isRun {r : Span} (h : r.IsRun line) : IsWordy line r.start r.stop := by
  intro m hlow hhigh
  obtain ⟨b, hb, hword⟩ := Text.hasAt_eq_true_iff.mp (h.word m hlow hhigh)
  exact Text.hasAt_eq_true_iff.mpr ⟨b, hb, by rw [hword, Bool.true_or]⟩

/-- A brace is no part of it. -/
theorem le_of_getElem? {t : Text} (h : IsWordy t i j) (hn : i ≤ n) (hget : t[n]? = some 123) :
    j ≤ n := by
  by_contra hlt
  obtain ⟨b, hb, hwordy⟩ := Text.hasAt_eq_true_iff.mp (h n hn (by omega))
  rw [hget] at hb
  cases hb
  exact absurd hwordy (by decide)

end IsWordy

theorem wordAt_of_beginsOutside {w rest : Text} (hne : w ≠ []) (hw : ∀ b ∈ w, isWordByte b = true)
    (hrest : BeginsOutside rest) : wordAt (w ++ rest) = some (w, rest) := by
  unfold wordAt
  dsimp only
  rw [List.takeWhile_append_of_pos hw, List.dropWhile_append_of_pos hw, (while_of_head? hrest).1,
    (while_of_head? hrest).2, List.append_nil, if_neg]
  exact fun hempty => hne (List.isEmpty_iff.mp hempty)

namespace Span.IsRun

variable {r : Span} {line : Text}

theorem of_ne_nil (h : r.IsRun line) : r.of line ≠ [] := by
  have hpos := h.nonempty
  rw [← List.length_pos_iff, h.length_of]
  omega

theorem wordAt (h : r.IsRun line) :
    Classifier.wordAt (line.drop r.start) = some (r.of line, line.drop r.stop) := by
  have hrest : BeginsOutside (line.drop r.stop) := by
    intro b hb
    rw [List.head?_drop] at hb
    have hafter := h.after
    rw [Text.hasAt, Option.mem_def.mp hb] at hafter
    exact hafter
  rw [Text.drop_eq_slice_append line (Nat.le_of_lt h.nonempty)]
  exact wordAt_of_beginsOutside h.of_ne_nil (Text.of_mem_slice h.word) hrest

theorem endsOutside_take (h : r.IsRun line) : EndsOutside (line.take r.start) := by
  intro b hb
  have hpos := h.nonempty
  have hle := h.stop_le
  rw [List.getLast?_take] at hb
  split at hb
  · cases hb
  · rename_i hstart
    have hlt : r.start - 1 < line.length := by omega
    rw [List.getElem?_eq_getElem hlt, Option.some_or, Option.mem_some_iff] at hb
    have hbefore := h.before (r.start - 1) (by omega)
    rw [Text.hasAt, List.getElem?_eq_getElem hlt, Option.any_some, hb] at hbefore
    exact hbefore

end Span.IsRun

/-! ## Heads -/

/-- At offset `n` there begins a word, the keyword; behind it and blanks the range holds a name. -/
structure IsHead (k : String) (line : Text) (n : Nat) (r : Span) : Prop where
  boundary : EndsOutside (line.take n)
  keyword : keywordAt k (line.drop n) = some (line.drop r.start)
  run : r.IsRun line

/-- The range of a word that is left over, counted from the beginning of the line. -/
theorem spanOf_drop {line u w rest : Text} {n : Nat} (hu : u <:+ line.drop n)
    (hw : wordAt u = some (w, rest)) :
    (spanOf (line.drop n) u w).shift n =
      ⟨line.length - u.length, line.length - u.length + w.length⟩ := by
  obtain ⟨rfl, hne, _⟩ := wordAt_eq_some hw
  have hpos := List.length_pos_iff.mpr hne
  have hle := hu.length_le
  simp only [List.length_append, List.length_drop] at hle
  have hstart : line.length - n - (w ++ rest).length + n = line.length - (w ++ rest).length := by
    rw [List.length_append]
    omega
  rw [spanOf, List.length_drop, Span.shift, Nat.add_right_comm, hstart]

/-- What is left over is the rest of the line. -/
theorem drop_spanOf {line u w rest : Text} {n : Nat} (hu : u <:+ line.drop n)
    (hw : wordAt u = some (w, rest)) :
    line.drop ((spanOf (line.drop n) u w).shift n).start = u := by
  rw [spanOf_drop hu hw]
  exact (List.suffix_iff_eq_drop.mp (hu.trans (List.drop_suffix n line))).symm

theorem isHead_of_keywordAt {k : String} (hk : IsKeyword k) {line u w rest : Text} {n : Nat}
    (hbefore : EndsOutside (line.take n)) (hkeyword : keywordAt k (line.drop n) = some u)
    (hword : wordAt u = some (w, rest)) :
    IsHead k line n ((spanOf (line.drop n) u w).shift n) := by
  have hsuffix := suffix_of_keywordAt hkeyword
  have hn : (line.take n).length = n := by
    have hle := hsuffix.length_le
    obtain ⟨rfl, hne, _⟩ := wordAt_eq_some hword
    have hpos := List.length_pos_iff.mpr hne
    rw [List.length_append, List.length_drop] at hle
    rw [List.length_take]
    omega
  have hbehind := isBehind_keyword hk hbefore hkeyword hword
  rw [List.take_append_drop, hn] at hbehind
  refine ⟨hbefore, ?_, hbehind.run⟩
  rw [drop_spanOf hsuffix hword]
  exact hkeyword

namespace IsHead

variable {k : String} {line : Text} {n : Nat} {r : Span}

/-- What stands between the beginning of a head and its name. -/
theorem split (h : IsHead k line n r) :
    ∃ s, s ≠ [] ∧ IsBlanks s ∧ line.drop n = bytes k ++ (s ++ line.drop r.start) ∧
      r.start = n + (bytes k).length + s.length := by
  obtain ⟨s, hne, hs, hdrop, _⟩ := keywordAt_eq_some_iff.mp h.keyword
  refine ⟨s, hne, hs, hdrop, ?_⟩
  have hpos := h.run.nonempty
  have hle := h.run.stop_le
  have hlength := congrArg List.length hdrop
  have hblanks := List.length_pos_iff.mpr hne
  simp only [List.length_append, List.length_drop] at hlength
  omega

theorem lt (h : IsHead k line n r) : n < r.start := by
  obtain ⟨s, hne, _, _, hstart⟩ := h.split
  have hblanks := List.length_pos_iff.mpr hne
  omega

theorem isBehind (h : IsHead k line n r) (hk : IsKeyword k) : r.IsBehind (bytes k) line := by
  have hbehind := isBehind_keyword hk h.boundary h.keyword h.run.wordAt
  have hpos := h.run.nonempty
  have hle := h.run.stop_le
  have hlt := h.lt
  have hn : (line.take n).length = n := by
    rw [List.length_take]
    omega
  rw [List.take_append_drop, hn, spanOf_drop (suffix_of_keywordAt h.keyword) h.run.wordAt] at hbehind
  have hstart : r.start = line.length - (line.drop r.start).length := by
    rw [List.length_drop]
    omega
  rwa [← h.run.eq_of_start hbehind.run hstart] at hbehind

/-- Within the head the keyword is a word and the rest is blanks. -/
theorem cases_of_lt (h : IsHead k line n r) (hk : IsKeyword k) {i : Nat} (hlow : n ≤ i)
    (hhigh : i < r.start) :
    (i < n + (bytes k).length ∧ line.hasAt isWordByte i = true) ∨
      (n + (bytes k).length ≤ i ∧ line.hasAt Text.isBlank i = true) := by
  obtain ⟨s, _, hs, hdrop, hstart⟩ := h.split
  obtain ⟨j, rfl⟩ := Nat.exists_eq_add_of_le hlow
  have hat : ∀ p : UInt8 → Bool,
      line.hasAt p (n + j) = (bytes k ++ (s ++ line.drop r.start)).hasAt p j := by
    intro p
    rw [← Text.hasAt_drop, hdrop]
  rw [hat, hat]
  rcases Nat.lt_or_ge j (bytes k).length with hj | hj
  · refine Or.inl ⟨by omega, ?_⟩
    rw [Text.hasAt_append_left hj]
    exact Text.hasAt_of_all hk.2 hj
  · refine Or.inr ⟨by omega, ?_⟩
    obtain ⟨m, rfl⟩ := Nat.exists_eq_add_of_le hj
    rw [Text.hasAt_append_right, Text.hasAt_append_left (by omega)]
    exact Text.hasAt_of_all hs (by omega)

theorem isWordy (h : IsHead k line n r) (hk : IsKeyword k) : IsWordy line n r.stop := by
  refine IsWordy.trans (j := r.start) ?_ (IsWordy.of_isRun h.run) (Nat.le_refl _)
  intro i hlow hhigh
  rcases h.cases_of_lt hk hlow hhigh with ⟨_, hat⟩ | ⟨_, hat⟩ <;>
    obtain ⟨b, hb, hbyte⟩ := Text.hasAt_eq_true_iff.mp hat
  · exact Text.hasAt_eq_true_iff.mpr ⟨b, hb, by rw [hbyte, Bool.true_or]⟩
  · exact Text.hasAt_eq_true_iff.mpr ⟨b, hb, by rw [hbyte, Bool.or_true]⟩

/-- No run begins inside a head before its name, except the keyword. -/
theorem le_start_of_isRun (h : IsHead k line n r) (hk : IsKeyword k) {s : Span}
    (hs : s.IsRun line) (hn : n < s.start) : r.start ≤ s.start := by
  by_contra hlt
  have hpos := hs.nonempty
  have hword := hs.word s.start (Nat.le_refl _) hpos
  have hbefore := hs.before (s.start - 1) (by omega)
  rcases h.cases_of_lt hk (i := s.start - 1) (by omega) (by omega) with ⟨_, hat⟩ | ⟨hend, _⟩
  · rw [hat] at hbefore
    cases hbefore
  · rcases h.cases_of_lt hk (i := s.start) (by omega) (by omega) with ⟨hkeyword, _⟩ | ⟨_, hat⟩
    · omega
    · rw [Text.hasAt_eq_false (fun _ => isWordByte_of_isBlank) hat] at hword
      cases hword

end IsHead

/-- What stands before an offset ends in the word before it and blanks. -/
theorem split_wordBefore (line : Text) (i : Nat) :
    ∃ before s, line.take i = before ++ (wordBefore line i ++ s) ∧ EndsOutside before ∧
      IsBlanks s := by
  generalize hfront : (line.take i).reverse = front
  refine ⟨((front.dropWhile Text.isBlank).dropWhile isWordByte).reverse,
    (front.takeWhile Text.isBlank).reverse, ?_, ?_, ?_⟩
  · calc line.take i = (line.take i).reverse.reverse := (List.reverse_reverse _).symm
      _ = (front.takeWhile Text.isBlank ++ ((front.dropWhile Text.isBlank).takeWhile isWordByte ++
            (front.dropWhile Text.isBlank).dropWhile isWordByte)).reverse := by
        rw [List.takeWhile_append_dropWhile, List.takeWhile_append_dropWhile, hfront]
      _ = _ := by
        rw [List.reverse_append, List.reverse_append, wordBefore, hfront, List.append_assoc]
  · intro b hb
    rw [List.getLast?_reverse] at hb
    have hstop := List.head?_dropWhile_not isWordByte (front.dropWhile Text.isBlank)
    rw [Option.mem_def.mp hb] at hstop
    exact Bool.eq_false_iff.mpr (by simpa using hstop)
  · intro b hb
    exact List.mem_takeWhile_imp (List.mem_reverse.mp hb)

/-- Every name behind a keyword has a head. -/
theorem exists_isHead {k : String} (hk : IsKeyword k) {line : Text} {r : Span}
    (h : r.IsBehind (bytes k) line) : ∃ n, IsHead k line n r := by
  obtain ⟨before, s, hsplit, hbefore, hs⟩ := split_wordBefore line r.start
  rw [h.word_before] at hsplit
  -- the name would go on with the keyword if there were no blank between
  have hne : s ≠ [] := by
    rintro rfl
    have hends := h.run.endsOutside_take
    rw [hsplit, List.append_nil] at hends
    have hout := hends ((bytes k).getLast hk.1)
      (by rw [List.getLast?_append_of_ne_nil _ hk.1]; exact List.getLast?_eq_some_getLast hk.1)
    rw [hk.2 _ (List.getLast_mem hk.1)] at hout
    cases hout
  have hline : line = before ++ (bytes k ++ (s ++ line.drop r.start)) := by
    rw [← List.append_assoc (bytes k), ← List.append_assoc before, ← hsplit, List.take_append_drop]
  have hhead : ∀ b ∈ (line.drop r.start).head?, Text.isBlank b = false := by
    intro b hb
    rw [List.head?_drop] at hb
    obtain ⟨c, hc, hbyte⟩ :=
      Text.hasAt_eq_true_iff.mp (h.run.word r.start (Nat.le_refl _) h.run.nonempty)
    rw [Option.mem_def.mp hb] at hc
    cases hc
    exact isBlank_of_isWordByte hbyte
  refine ⟨before.length, ?_, ?_, h.run⟩
  · rw [hline, List.take_left]
    exact hbefore
  · apply keywordAt_eq_some_iff.mpr
    refine ⟨s, hne, hs, ?_, hhead⟩
    nth_rewrite 1 [hline]
    rw [List.drop_left]

/-! ## Searches -/

theorem searchWord_eq_some_drop {α : Type} {at? : Text → Option α} {line : Text} {i : Nat} {m : α}
    (h : searchWord at? false 0 line = some (i, m)) :
    EndsOutside (line.take i) ∧ at? (line.drop i) = some m := by
  obtain ⟨before, rest, rfl, rfl, hm, _, hends⟩ := searchWord_boundary h
  rw [Nat.zero_add, List.take_left, List.drop_left]
  exact ⟨hends, hm⟩

/-- A search finds something where there is something to be found, or before. -/
theorem exists_searchWord_append {α : Type} {at? : Text → Option α} (hnil : at? [] = none)
    {before rest : Text} {afterWord : Bool} (offset : Nat) (hflag : before = [] → afterWord = false)
    (hends : EndsOutside before) (hrest : (at? rest).isSome) :
    ∃ i m, searchWord at? afterWord offset (before ++ rest) = some (i, m) ∧
      i ≤ offset + before.length := by
  induction before generalizing afterWord offset with
  | nil =>
      cases rest with
      | nil =>
          rw [hnil] at hrest
          cases hrest
      | cons b t =>
          obtain ⟨m, hm⟩ := Option.isSome_iff_exists.mp hrest
          refine ⟨offset, m, ?_, Nat.le_refl _⟩
          rw [List.nil_append, searchWord, hflag rfl, if_neg Bool.false_ne_true, hm]
  | cons b before ih =>
      have hword : before = [] → isWordByte b = false := by
        rintro rfl
        exact hends b (Option.mem_some_self b)
      have htail : EndsOutside before := by
        cases before with
        | nil => exact endsOutside_nil
        | cons c before => exact hends
      obtain ⟨i, m, hfound, hle⟩ := ih (offset + 1) hword htail
      rw [List.cons_append, searchWord]
      split
      · rename_i m' _
        exact ⟨offset, m', rfl, Nat.le_add_right _ _⟩
      · refine ⟨i, m, hfound, ?_⟩
        rw [List.length_cons]
        omega

theorem exists_searchWord {α : Type} {at? : Text → Option α} (hnil : at? [] = none) {line : Text}
    {n : Nat} (hends : EndsOutside (line.take n)) (hrest : (at? (line.drop n)).isSome) :
    ∃ i m, searchWord at? false 0 line = some (i, m) ∧ i ≤ n := by
  obtain ⟨i, m, hfound, hle⟩ := exists_searchWord_append hnil 0 (fun _ => rfl) hends hrest
  rw [List.take_append_drop] at hfound
  rw [List.length_take] at hle
  exact ⟨i, m, hfound, by omega⟩

/-- The first name of the line that stands behind the word. -/
structure Span.IsFirstBehind (r : Span) (k : Text) (line : Text) : Prop where
  behind : r.IsBehind k line
  first : ∀ s : Span, s.IsBehind k line → r.start ≤ s.start

theorem Span.IsFirstBehind.unique {r s : Span} {k line : Text} (hr : r.IsFirstBehind k line)
    (hs : s.IsFirstBehind k line) : r = s :=
  hr.behind.run.eq_of_start hs.behind.run
    (Nat.le_antisymm (hr.first s hs.behind) (hs.first r hr.behind))

theorem IsHead.isSome_namedAt {k : String} {line : Text} {n : Nat} {r : Span}
    (h : IsHead k line n r) : (namedAt k (line.drop n)).isSome := by
  unfold namedAt
  rw [h.keyword, Option.bind_eq_bind, Option.bind_some, h.run.wordAt]
  rfl

theorem isHead_of_namedAt {k : String} (hk : IsKeyword k) {line : Text} {n : Nat} {r : Span}
    (hbefore : EndsOutside (line.take n)) (h : namedAt k (line.drop n) = some r) :
    IsHead k line n (r.shift n) := by
  obtain ⟨u, hkeyword, h⟩ := Option.bind_eq_some_iff.mp h
  obtain ⟨⟨w, rest⟩, hword, h⟩ := Option.bind_eq_some_iff.mp h
  cases h
  exact isHead_of_keywordAt hk hbefore hkeyword hword

/-- The search for a keyword and a name finds the first name behind the keyword. -/
theorem named_eq_some_iff {k : String} (hk : IsKeyword k) {line : Text} {r : Span} :
    (searchWord (namedAt k) false 0 line).map (fun (i, r) => r.shift i) = some r ↔
      r.IsFirstBehind (bytes k) line := by
  have hnil : namedAt k [] = none := by
    rw [namedAt, keywordAt_nil]
    rfl
  have hfound : ∀ {r : Span},
      (searchWord (namedAt k) false 0 line).map (fun (i, r) => r.shift i) = some r →
        r.IsFirstBehind (bytes k) line := by
    intro r h
    obtain ⟨⟨i, q⟩, hsearch, rfl⟩ := Option.map_eq_some_iff.mp h
    obtain ⟨hends, hnamed⟩ := searchWord_eq_some_drop hsearch
    have hhead := isHead_of_namedAt hk hends hnamed
    refine ⟨hhead.isBehind hk, ?_⟩
    intro s hs
    obtain ⟨n, hn⟩ := exists_isHead hk hs
    obtain ⟨i', m, hsearch', hle⟩ := exists_searchWord hnil hn.boundary hn.isSome_namedAt
    rw [hsearch] at hsearch'
    cases hsearch'
    exact hhead.le_start_of_isRun hk hs.run (Nat.lt_of_le_of_lt hle hn.lt)
  constructor
  · exact hfound
  · intro h
    obtain ⟨n, hn⟩ := exists_isHead hk h.behind
    obtain ⟨i, q, hsearch, _⟩ := exists_searchWord hnil hn.boundary hn.isSome_namedAt
    have hname : (searchWord (namedAt k) false 0 line).map (fun (i, r) => r.shift i) =
        some (q.shift i) := by
      rw [hsearch]
      rfl
    rw [hname, (hfound hname).unique h]

theorem className?_eq_some_iff {line : Text} {r : Span} :
    className? line = some r ↔ r.IsFirstBehind (bytes "class") line :=
  named_eq_some_iff (by decide)

/-! ## Bodies that heads open -/

/-- The first brace or semicolon at or behind the end of the range is an opening brace, and stands
at the offset. -/
structure Span.Opens (r : Span) (t : Text) (brace : Nat) : Prop where
  le : r.stop ≤ brace
  opened : t[brace]? = some 123
  between : ∀ i, r.stop ≤ i → i < brace → t[i]? ≠ some 123 ∧ t[i]? ≠ some 59

theorem opens_of_dropWhile {r : Span} {t u : Text}
    (h : (t.drop r.stop).dropWhile (fun b => b != 123 && b != 59) = 123 :: u) :
    r.Opens t (t.length - u.length - 1) ∧ u.length < t.length := by
  have hsplit := List.takeWhile_append_dropWhile (p := fun b : UInt8 => b != 123 && b != 59)
    (l := t.drop r.stop)
  rw [h] at hsplit
  generalize hfront : (t.drop r.stop).takeWhile (fun b => b != 123 && b != 59) = front at hsplit
  have hlength := congrArg List.length hsplit
  rw [List.length_append, List.length_cons, List.length_drop] at hlength
  have hbrace : t.length - u.length - 1 = r.stop + front.length := by omega
  have hget : ∀ i, t[r.stop + i]? = (front ++ 123 :: u)[i]? := by
    intro i
    rw [hsplit, List.getElem?_drop]
  refine ⟨⟨by omega, ?_, ?_⟩, by omega⟩
  · rw [hbrace, hget, List.getElem?_append_right (Nat.le_refl _), Nat.sub_self,
      List.getElem?_cons_zero]
  · intro i hlow hhigh
    obtain ⟨j, rfl⟩ := Nat.exists_eq_add_of_le hlow
    have hj : j < front.length := by omega
    have hmem : front[j] ∈ (t.drop r.stop).takeWhile (fun b => b != 123 && b != 59) := by
      rw [hfront]
      exact List.getElem_mem hj
    have hbyte := List.mem_takeWhile_imp hmem
    rw [Bool.and_eq_true, bne_iff_ne, bne_iff_ne] at hbyte
    rw [hget, List.getElem?_append_left hj, List.getElem?_eq_getElem hj]
    exact ⟨fun hb => hbyte.1 (Option.some.inj hb), fun hb => hbyte.2 (Option.some.inj hb)⟩

theorem Span.Opens.dropWhile_eq {r : Span} {t : Text} {brace : Nat} (h : r.Opens t brace) :
    (t.drop r.stop).dropWhile (fun b => b != 123 && b != 59) = 123 :: t.drop (brace + 1) := by
  have hfront : ∀ b ∈ t.slice r.stop brace, (b != 123 && b != 59) = true := by
    apply Text.of_mem_slice
    intro i hlow hhigh
    obtain ⟨hbrace, _⟩ := List.getElem?_eq_some_iff.mp h.opened
    have hi : i < t.length := by omega
    obtain ⟨hopen, hsemicolon⟩ := h.between i hlow hhigh
    rw [List.getElem?_eq_getElem hi] at hopen hsemicolon
    refine Text.hasAt_eq_true_iff.mpr ⟨t[i], List.getElem?_eq_getElem hi, ?_⟩
    rw [Bool.and_eq_true, bne_iff_ne, bne_iff_ne]
    exact ⟨fun hb => hopen (congrArg some hb), fun hb => hsemicolon (congrArg some hb)⟩
  rw [Text.drop_eq_slice_append t h.le, List.dropWhile_append_of_pos hfront,
    List.drop_eq_getElem?_toList_append, h.opened]
  rfl

/-- The braces that open a body behind one of the keywords and a name. -/
def definitionBraces (keywords : List String) (line : Text) : Set Nat :=
  {brace | ∃ k ∈ keywords, ∃ r : Span, r.IsBehind (bytes k) line ∧ r.Opens line brace}

/-! ## Records -/

/-- What introduces a record. -/
def recordKeywords : List String := ["class", "struct"]

theorem isKeyword_of_record {k : String} (h : k ∈ recordKeywords) : IsKeyword k := by
  have hall : ∀ k ∈ recordKeywords, IsKeyword k := by decide
  exact hall k h

theorem recordKeyword_eq_some_iff {t u : Text} :
    ((keywordAt "class" t).orElse fun _ => keywordAt "struct" t) = some u ↔
      ∃ k ∈ recordKeywords, keywordAt k t = some u := by
  rw [Option.orElse_eq_or, Option.or_eq_some_iff]
  constructor
  · rintro (h | ⟨_, h⟩)
    · exact ⟨"class", by decide, h⟩
    · exact ⟨"struct", by decide, h⟩
  · rintro ⟨k, hk, h⟩
    rcases List.mem_cons.mp hk with rfl | hk
    · exact Or.inl h
    · rw [List.mem_singleton.mp hk] at h
      refine Or.inr ⟨?_, h⟩
      -- the keywords begin with different letters
      rw [Option.eq_none_iff_forall_ne_some]
      intro v hclass
      obtain ⟨_, _, _, ht, _⟩ := keywordAt_eq_some_iff.mp h
      obtain ⟨_, _, _, ht', _⟩ := keywordAt_eq_some_iff.mp hclass
      rw [ht] at ht'
      exact absurd (List.cons.inj ht').1 (by decide)

theorem isHead_of_recordAt {line : Text} {n m : Nat} (hbefore : EndsOutside (line.take n))
    (h : recordAt (line.drop n) = some m) :
    ∃ k ∈ recordKeywords, ∃ r : Span, IsHead k line n r ∧ r.Opens line (n + m) := by
  obtain ⟨u, hkeyword, h⟩ := Option.bind_eq_some_iff.mp h
  obtain ⟨⟨w, rest⟩, hword, h⟩ := Option.bind_eq_some_iff.mp h
  obtain ⟨k, hk, hkeyword⟩ := recordKeyword_eq_some_iff.mp hkeyword
  have hhead := isHead_of_keywordAt (isKeyword_of_record hk) hbefore hkeyword hword
  generalize (spanOf (line.drop n) u w).shift n = r at hhead
  have hu : u = line.drop r.start := Option.some.inj (hkeyword.symm.trans hhead.keyword)
  have hrest : rest = line.drop r.stop := by
    rw [hu, hhead.run.wordAt] at hword
    cases hword
    rfl
  refine ⟨k, hk, r, hhead, ?_⟩
  dsimp only at h
  split at h
  · rename_i v hv
    cases h
    rw [hrest] at hv
    obtain ⟨hopens, hlt⟩ := opens_of_dropWhile hv
    have hle := hopens.le
    have hstart := hhead.lt
    have hpos := hhead.run.nonempty
    have hbrace : n + ((line.drop n).length - v.length - 1) = line.length - v.length - 1 := by
      rw [List.length_drop]
      omega
    rw [hbrace]
    exact hopens
  · cases h

theorem isSome_recordAt {k : String} (hk : k ∈ recordKeywords) {line : Text} {n brace : Nat}
    {r : Span} (h : IsHead k line n r) (hopens : r.Opens line brace) :
    (recordAt (line.drop n)).isSome := by
  unfold recordAt
  rw [recordKeyword_eq_some_iff.mpr ⟨k, hk, h.keyword⟩, Option.bind_eq_bind, Option.bind_some,
    h.run.wordAt, Option.bind_eq_bind, Option.bind_some]
  dsimp only
  rw [hopens.dropWhile_eq]
  rfl

/-- A head that is found by a search comes before every brace that is opened from there on. -/
theorem exists_recordBrace? {line : Text} {brace : Nat}
    (h : brace ∈ definitionBraces recordKeywords line) :
    ∃ first, recordBrace? line = some first ∧ first ≤ brace := by
  obtain ⟨k, hk, r, hbehind, hopens⟩ := h
  obtain ⟨n, hn⟩ := exists_isHead (isKeyword_of_record hk) hbehind
  have hnil : recordAt [] = none := rfl
  obtain ⟨i, m, hsearch, hle⟩ := exists_searchWord hnil hn.boundary (isSome_recordAt hk hn hopens)
  refine ⟨i + m, by rw [recordBrace?, hsearch]; rfl, ?_⟩
  obtain ⟨hends, hrecord⟩ := searchWord_eq_some_drop hsearch
  obtain ⟨k', hk', r', hhead, hfirst⟩ := isHead_of_recordAt hends hrecord
  have hlt := hn.lt
  have hpos := hn.run.nonempty
  have hstop := hopens.le
  have hwordy := (hhead.isWordy (isKeyword_of_record hk')).le_of_getElem? (n := brace) (by omega)
    hopens.opened
  by_contra hover
  exact (hfirst.between brace hwordy (by omega)).1 hopens.opened

theorem isLeast_recordBrace? {line : Text} {brace : Nat} (h : recordBrace? line = some brace) :
    IsLeast (definitionBraces recordKeywords line) brace := by
  constructor
  · obtain ⟨⟨i, m⟩, hsearch, rfl⟩ := Option.map_eq_some_iff.mp h
    obtain ⟨hends, hrecord⟩ := searchWord_eq_some_drop hsearch
    obtain ⟨k, hk, r, hhead, hopens⟩ := isHead_of_recordAt hends hrecord
    exact ⟨k, hk, r, hhead.isBehind (isKeyword_of_record hk), hopens⟩
  · intro b hb
    obtain ⟨first, hfirst, hle⟩ := exists_recordBrace? hb
    rw [h] at hfirst
    cases hfirst
    exact hle

/-! ## Enums -/

/-- The name of an enum stands behind `enum` or behind a word that makes it a class, and up to its
end there are only words. -/
theorem isWordy_of_enumAt {line : Text} {n : Nat} {e : EnumHead}
    (hbefore : EndsOutside (line.take n)) (h : enumAt (line.drop n) = some e) :
    IsWordy line n (e.name.shift n).stop ∧
      if e.isScoped then ∃ k ∈ recordKeywords, (e.name.shift n).IsBehind (bytes k) line
      else (e.name.shift n).IsBehind (bytes "enum") line := by
  have henum : IsKeyword "enum" := by decide
  obtain ⟨u, hkeyword, h⟩ := Option.bind_eq_some_iff.mp h
  dsimp only at h
  rw [Option.orElse_eq_or, Option.or_eq_some_iff] at h
  rcases h with h | ⟨_, h⟩
  · obtain ⟨v, hscope, h⟩ := Option.bind_eq_some_iff.mp h
    obtain ⟨⟨w, rest⟩, hword, h⟩ := Option.bind_eq_some_iff.mp h
    cases h
    obtain ⟨k, hk, hscope⟩ := recordKeyword_eq_some_iff.mp hscope
    have hk' := isKeyword_of_record hk
    -- the word that makes it a class is itself a name behind `enum`
    obtain ⟨s, hne, hs, hu, _⟩ := keywordAt_eq_some_iff.mp hscope
    have hblank : BeginsOutside (s ++ v) := by
      intro b hb
      obtain ⟨c, s, rfl⟩ := List.exists_cons_of_ne_nil hne
      cases hb
      exact isWordByte_of_isBlank (hs b List.mem_cons_self)
    have hq := isHead_of_keywordAt henum hbefore hkeyword
      (hu ▸ wordAt_of_beginsOutside hk'.1 hk'.2 hblank)
    generalize (spanOf (line.drop n) u (bytes k)).shift n = q at hq
    have hdrop : line.drop q.start = u := Option.some.inj (hq.keyword.symm.trans hkeyword)
    have hname := isHead_of_keywordAt hk' hq.run.endsOutside_take (hdrop ▸ hscope) hword
    have hsuffix := suffix_of_keywordAt hscope
    rw [spanOf_drop (hdrop ▸ hsuffix) hword] at hname
    rw [spanOf_drop (hsuffix.trans (suffix_of_keywordAt hkeyword)) hword]
    generalize (⟨line.length - v.length, line.length - v.length + w.length⟩ : Span) = r at hname ⊢
    constructor
    · exact (hq.isWordy henum).trans (hname.isWordy hk') (Nat.le_of_lt hq.run.nonempty)
    · exact ⟨k, hk, hname.isBehind hk'⟩
  · obtain ⟨⟨w, rest⟩, hword, h⟩ := Option.bind_eq_some_iff.mp h
    cases h
    have hhead := isHead_of_keywordAt henum hbefore hkeyword hword
    exact ⟨hhead.isWordy henum, hhead.isBehind henum⟩

/-- A match of the expression for enums, wherever on the line it begins. -/
def EnumHead.IsMatch (e : EnumHead) (line : Text) : Prop :=
  ∃ n e', EndsOutside (line.take n) ∧ enumAt (line.drop n) = some e' ∧
    e = { e' with name := e'.name.shift n }

/-- The braces of enum definitions: they come before any semicolon behind the name of the enum. -/
def enumBraces (line : Text) : Set Nat :=
  {brace | ∃ e : EnumHead, e.IsMatch line ∧ e.name.Opens line brace}

theorem isMatch_enum? {line : Text} {e : EnumHead} (h : enum? line = some e) : e.IsMatch line := by
  obtain ⟨⟨n, e'⟩, hsearch, rfl⟩ := Option.map_eq_some_iff.mp h
  obtain ⟨hends, henum⟩ := searchWord_eq_some_drop hsearch
  exact ⟨n, e', hends, henum, rfl⟩

/-- The word before the name of an enum tells how it was written. -/
theorem EnumHead.IsMatch.isBehind {line : Text} {e : EnumHead} (h : e.IsMatch line) :
    if e.isScoped then ∃ k ∈ recordKeywords, e.name.IsBehind (bytes k) line
    else e.name.IsBehind (bytes "enum") line := by
  obtain ⟨n, e', hends, henum, rfl⟩ := h
  exact (isWordy_of_enumAt hends henum).2

/-- The name of the first enum ends before every brace of an enum definition. -/
theorem exists_enum? {line : Text} {brace : Nat} (h : brace ∈ enumBraces line) :
    ∃ e, enum? line = some e ∧ e.name.stop ≤ brace := by
  obtain ⟨_, ⟨n, e', hends', henum', rfl⟩, hopens⟩ := h
  have hnil : enumAt [] = none := rfl
  obtain ⟨i, e, hsearch, hle⟩ :=
    exists_searchWord hnil hends' (Option.isSome_iff_exists.mpr ⟨e', henum'⟩)
  refine ⟨{ e with name := e.name.shift i }, by rw [enum?, hsearch]; rfl, ?_⟩
  obtain ⟨hends, henum⟩ := searchWord_eq_some_drop hsearch
  have hwordy := (isWordy_of_enumAt hends henum).1
  have hstop := hopens.le
  simp only [Span.shift] at hstop
  exact hwordy.le_of_getElem? (by omega) hopens.opened

end LineReview.Classifier
