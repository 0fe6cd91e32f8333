import LineReview.Proofs.Classifier.TrailingBlanks

/-!
# Runs of word bytes

A run is a word of the line that cannot be made longer: the bytes next to it on
either side belong to no word. Two runs are the same or lie apart, and the first
bytes tell them from each other (`IsRun.apart`).

The names that the expressions find are runs. What stands before them tells where
they come from: the word before the name of a class is `class`, and before an
enumerator there is no word but a brace or a comma (`wordBefore`). So a name that
one expression finds is never one that another finds.
-/

namespace LineReview

open Text (IsBlanks)

namespace Text

/-- Is there a byte at the offset, and does it satisfy the condition? -/
def hasAt (t : Text) (p : UInt8 → Bool) (i : Nat) : Bool := t[i]?.any p

theorem hasAt_eq_true_iff {t : Text} {p : UInt8 → Bool} {i : Nat} :
    t.hasAt p i = true ↔ ∃ b, t[i]? = some b ∧ p b = true := by
  unfold hasAt
  cases t[i]? <;> simp

theorem lt_of_hasAt {t : Text} {p : UInt8 → Bool} {i : Nat} (h : t.hasAt p i = true) :
    i < t.length := by
  obtain ⟨b, hb, _⟩ := hasAt_eq_true_iff.mp h
  exact (List.getElem?_eq_some_iff.mp hb).1

theorem hasAt_append_left {t s : Text} {i : Nat} (h : i < t.length) (p : UInt8 → Bool) :
    (t ++ s).hasAt p i = t.hasAt p i := by
  rw [hasAt, hasAt, List.getElem?_append_left h]

theorem hasAt_append_right (t s : Text) (p : UInt8 → Bool) (i : Nat) :
    (t ++ s).hasAt p (t.length + i) = s.hasAt p i := by
  rw [hasAt, hasAt, List.getElem?_append_right (Nat.le_add_right _ _), Nat.add_sub_cancel_left]

theorem hasAt_drop (t : Text) (p : UInt8 → Bool) (n i : Nat) :
    hasAt (t.drop n) p i = t.hasAt p (n + i) := by
  rw [hasAt, hasAt, List.getElem?_drop]

theorem hasAt_of_all {t : Text} {p : UInt8 → Bool} (h : ∀ b ∈ t, p b = true) {i : Nat}
    (hi : i < t.length) : t.hasAt p i = true :=
  hasAt_eq_true_iff.mpr ⟨t[i], List.getElem?_eq_getElem hi, h _ (List.getElem_mem hi)⟩

/-- At most one of two conditions that exclude each other holds at an offset. -/
theorem hasAt_eq_false {t : Text} {p q : UInt8 → Bool} (hpq : ∀ b, p b = true → q b = false)
    {i : Nat} (h : t.hasAt p i = true) : t.hasAt q i = false := by
  obtain ⟨b, hb, hp⟩ := hasAt_eq_true_iff.mp h
  rw [hasAt, hb]
  exact hpq b hp

theorem strip?_self_append (p t : Text) : strip? (p ++ t) p = some t := by
  induction p with
  | nil => rw [List.nil_append, strip?]
  | cons c p ih => rw [List.cons_append, strip?, if_pos (beq_self_eq_true c), ih]

/-- A text is cut at the first place where the byte stands. -/
theorem split_of_indexOf? {c : UInt8} {t : Text} {i : Nat} (h : indexOf? c t = some i) :
    t = t.take i ++ c :: t.drop (i + 1) := by
  induction t generalizing i with
  | nil => cases h
  | cons b t ih =>
      rw [indexOf?] at h
      split at h
      · rename_i hb
        cases h
        rw [hb]
        rfl
      · obtain ⟨j, hj, rfl⟩ := Option.map_eq_some_iff.mp h
        rw [List.take_succ_cons, List.drop_succ_cons, List.cons_append, ← ih hj]

end Text

namespace Classifier

/-! ## Runs -/

/-- The range is a word of the line, and neither byte next to it belongs to a word. -/
structure Span.IsRun (r : Span) (line : Text) : Prop where
  nonempty : r.start < r.stop
  word : ∀ i, r.start ≤ i → i < r.stop → line.hasAt isWordByte i = true
  before : ∀ i, i + 1 = r.start → line.hasAt isWordByte i = false
  after : line.hasAt isWordByte r.stop = false

namespace Span.IsRun

variable {r s : Span} {line : Text}

theorem stop_le (h : r.IsRun line) : r.stop ≤ line.length := by
  have hpos := h.nonempty
  have hlt := Text.lt_of_hasAt (h.word (r.stop - 1) (by omega) (by omega))
  omega

theorem length_of (h : r.IsRun line) : (r.of line).length = r.stop - r.start := by
  have hle := h.stop_le
  rw [Span.of, Text.slice, List.length_take, List.length_drop]
  omega

/-- A run that begins further right lies further right, with a byte between. -/
theorem apart (hr : r.IsRun line) (hs : s.IsRun line) (h : r.start < s.start) :
    r.stop < s.start := by
  by_contra hle
  have hoverlap : s.start ≤ r.stop := Nat.not_lt.mp hle
  -- the byte before the second run would be a byte of the first one
  have hoff := hs.before (s.start - 1) (by omega)
  rw [hr.word (s.start - 1) (by omega) (by omega)] at hoff
  cases hoff

/-- Runs that begin at one offset are the same. -/
theorem eq_of_start (hr : r.IsRun line) (hs : s.IsRun line) (h : r.start = s.start) : r = s := by
  have hle : ∀ {r s : Span}, r.IsRun line → s.IsRun line → r.start = s.start →
      s.stop ≤ r.stop := by
    intro r s hr hs h
    by_contra hlt
    have hpos := hr.nonempty
    have hoff := hr.after
    rw [hs.word r.stop (by omega) (by omega)] at hoff
    cases hoff
  have hstop := Nat.le_antisymm (hle hs hr h.symm) (hle hr hs h)
  obtain ⟨i, j⟩ := r
  obtain ⟨k, l⟩ := s
  dsimp only at h hstop
  rw [h, hstop]

end Span.IsRun

/-- No word goes on at the front of the text. -/
def BeginsOutside (t : Text) : Prop := ∀ b ∈ t.head?, isWordByte b = false

/-- No word goes on behind the text. -/
def EndsOutside (t : Text) : Prop := ∀ b ∈ t.getLast?, isWordByte b = false

theorem endsOutside_nil : EndsOutside [] := nofun

theorem endsOutside_concat {t : Text} {b : UInt8} (h : isWordByte b = false) :
    EndsOutside (t ++ [b]) := by
  intro c hc
  rw [List.getLast?_concat, Option.mem_some_iff] at hc
  rw [← hc, h]

theorem endsOutside_append {t s : Text} (hs : IsBlanks s) (ht : s = [] → EndsOutside t) :
    EndsOutside (t ++ s) := by
  intro b hb
  rw [List.getLast?_append] at hb
  cases hlast : s.getLast? with
  | none =>
      rw [hlast, Option.none_or] at hb
      exact ht (List.getLast?_eq_none_iff.mp hlast) b hb
  | some c =>
      rw [hlast, Option.some_or, Option.mem_some_iff] at hb
      exact isWordByte_of_isBlank (hs b (hb ▸ List.mem_of_getLast? hlast))

/-- A word with nothing of a word on either side is a run. -/
theorem isRun_append {before w after : Text} (hne : w ≠ []) (hw : ∀ b ∈ w, isWordByte b = true)
    (hbefore : EndsOutside before) (hafter : BeginsOutside after) :
    Span.IsRun ⟨before.length, before.length + w.length⟩ (before ++ (w ++ after)) where
  nonempty := by
    have hpos := List.length_pos_iff.mpr hne
    dsimp only
    omega
  word := by
    intro i hstart hstop
    dsimp only at hstart hstop
    obtain ⟨k, rfl⟩ := Nat.exists_eq_add_of_le hstart
    rw [Text.hasAt_append_right, Text.hasAt_append_left (by omega)]
    exact Text.hasAt_of_all hw (by omega)
  before := by
    intro i hi
    dsimp only at hi
    rw [Text.hasAt_append_left (by omega), Text.hasAt]
    cases hb : before[i]? with
    | none => rfl
    | some b =>
        refine hbefore b ?_
        rw [List.getLast?_eq_getElem?, ← hi, Nat.add_sub_cancel, hb]
        exact Option.mem_some_self b
  after := by
    dsimp only
    rw [Text.hasAt_append_right, ← Nat.add_zero w.length, Text.hasAt_append_right, Text.hasAt]
    cases hb : after[0]? with
    | none => rfl
    | some b =>
        refine hafter b ?_
        rw [List.head?_eq_getElem?, hb]
        exact Option.mem_some_self b

/-! ## What stands before a word -/

/-- The word that stands before the offset, with nothing but blanks between. -/
def wordBefore (line : Text) (i : Nat) : Text :=
  (((line.take i).reverse.dropWhile Text.isBlank).takeWhile isWordByte).reverse

theorem while_of_head? {p : UInt8 → Bool} {t : Text} (h : ∀ b ∈ t.head?, p b = false) :
    t.takeWhile p = [] ∧ t.dropWhile p = t := by
  cases t with
  | nil => exact ⟨rfl, rfl⟩
  | cons b t =>
      have hb : ¬ p b = true := Bool.eq_false_iff.mp (h b (Option.mem_some_self b))
      exact ⟨List.takeWhile_cons_of_neg hb, List.dropWhile_cons_of_neg hb⟩

/-- Blanks are skipped on the way back to the word before. -/
theorem wordBefore_blanks {before s rest : Text} (hs : IsBlanks s)
    (hlast : ∀ b ∈ before.getLast?, Text.isBlank b = false) :
    wordBefore (before ++ (s ++ rest)) (before.length + s.length) =
      (before.reverse.takeWhile isWordByte).reverse := by
  have hblanks : ∀ b ∈ s.reverse, Text.isBlank b = true := fun b hb => hs b (List.mem_reverse.mp hb)
  rw [← List.head?_reverse] at hlast
  unfold wordBefore
  rw [List.take_length_add_append, List.take_left, List.reverse_append,
    List.dropWhile_append_of_pos hblanks, (while_of_head? hlast).2]

theorem wordBefore_keyword {before k s rest : Text} (hbefore : EndsOutside before) (hne : k ≠ [])
    (hk : ∀ b ∈ k, isWordByte b = true) (hs : IsBlanks s) :
    wordBefore (before ++ k ++ (s ++ rest)) ((before ++ k).length + s.length) = k := by
  have hlast : ∀ b ∈ (before ++ k).getLast?, Text.isBlank b = false := by
    intro b hb
    rw [List.getLast?_append_of_ne_nil _ hne] at hb
    by_contra hblank
    have hword := hk b (List.mem_of_getLast? hb)
    rw [isWordByte_of_isBlank (Bool.not_eq_false _ ▸ hblank)] at hword
    cases hword
  have hword : ∀ b ∈ k.reverse, isWordByte b = true := fun b hb => hk b (List.mem_reverse.mp hb)
  unfold EndsOutside at hbefore
  rw [← List.head?_reverse] at hbefore
  rw [wordBefore_blanks hs hlast, List.reverse_append, List.takeWhile_append_of_pos hword,
    (while_of_head? hbefore).1, List.append_nil, List.reverse_reverse]

/-- Where no word ends, there is no word before. -/
theorem wordBefore_mark {before s rest : Text} {m : UInt8} (hword : isWordByte m = false)
    (hblank : Text.isBlank m = false) (hs : IsBlanks s) :
    wordBefore (before ++ [m] ++ (s ++ rest)) ((before ++ [m]).length + s.length) = [] := by
  have hlast : ∀ b ∈ (before ++ [m]).getLast?, Text.isBlank b = false := by
    intro b hb
    rw [List.getLast?_concat, Option.mem_some_iff] at hb
    rw [← hb, hblank]
  rw [wordBefore_blanks hs hlast, List.reverse_append, List.reverse_singleton, List.singleton_append,
    List.takeWhile_cons_of_neg (Bool.eq_false_iff.mp hword), List.reverse_nil]

/-! ## Words behind keywords -/

theorem keywordAt_eq_some_iff {k : String} {t r : Text} :
    keywordAt k t = some r ↔ ∃ s, s ≠ [] ∧ IsBlanks s ∧ t = bytes k ++ (s ++ r) ∧
      ∀ b ∈ r.head?, Text.isBlank b = false := by
  constructor
  · intro h
    obtain ⟨u, hstrip, h⟩ := Option.bind_eq_some_iff.mp h
    cases u with
    | nil => cases h
    | cons b u =>
        dsimp only at h
        split at h
        · rename_i hb
          cases h
          refine ⟨(b :: u).takeWhile Text.isBlank, ?_, fun c hc => List.mem_takeWhile_imp hc, ?_, ?_⟩
          · rw [List.takeWhile_cons_of_pos hb]
            exact List.cons_ne_nil _ _
          · rw [List.takeWhile_append_dropWhile]
            exact Text.eq_append_of_strip? hstrip
          · intro c hc
            have hstop := List.head?_dropWhile_not Text.isBlank (b :: u)
            rw [Option.mem_def.mp hc] at hstop
            exact Bool.eq_false_iff.mpr (by simpa using hstop)
        · cases h
  · rintro ⟨s, hne, hs, rfl, hr⟩
    obtain ⟨b, u, rfl⟩ := List.exists_cons_of_ne_nil hne
    have hblank : Text.isBlank b = true := hs b List.mem_cons_self
    rw [keywordAt, Text.strip?_self_append]
    change (if Text.isBlank b then some ((b :: u ++ r).dropWhile Text.isBlank) else none) = some r
    rw [if_pos hblank, List.dropWhile_append_of_pos hs, (while_of_head? hr).2]

/-- The word in front of a text is a whole word: it does not go on. -/
theorem beginsOutside_of_wordAt {t w rest : Text} (h : wordAt t = some (w, rest)) :
    BeginsOutside rest := by
  unfold wordAt at h
  dsimp only at h
  split at h
  · cases h
  · cases h
    intro b hb
    have hstop := List.head?_dropWhile_not isWordByte t
    rw [Option.mem_def.mp hb] at hstop
    exact Bool.eq_false_iff.mpr (by simpa using hstop)

theorem spanOf_behind (front r w : Text) :
    spanOf (front ++ r) r w = ⟨front.length, front.length + w.length⟩ := by
  rw [spanOf, List.length_append, Nat.add_sub_cancel]

theorem Span.shift_mk (n i j : Nat) : Span.shift n ⟨i, j⟩ = ⟨n + i, n + j⟩ := by
  rw [Span.shift, Nat.add_comm i, Nat.add_comm j]

/-- The range is a run of the line, and the word before it is `k`. -/
structure Span.IsBehind (r : Span) (k : Text) (line : Text) : Prop where
  run : r.IsRun line
  word_before : wordBefore line r.start = k

/-- Words can only be told from what stands before them. -/
theorem Span.IsBehind.start_ne {r s : Span} {k l line : Text} (hr : r.IsBehind k line)
    (hs : s.IsBehind l line) (hne : k ≠ l) : r.start ≠ s.start := by
  intro h
  refine hne ?_
  rw [← hr.word_before, ← hs.word_before, h]

/-- A keyword: a word, and not the empty one. -/
def IsKeyword (k : String) : Prop := bytes k ≠ [] ∧ ∀ b ∈ bytes k, isWordByte b = true

-- byte by byte of the keyword, and not over all bytes that there are
instance (k : String) : Decidable (IsKeyword k) :=
  @instDecidableAnd _ _ inferInstance (List.decidableBAll (isWordByte · = true) (bytes k))

/-- The name that a keyword introduces, in a line on which the keyword begins a word. -/
theorem isBehind_keyword {k : String} (hk : IsKeyword k) {before t r w rest : Text}
    (hbefore : EndsOutside before) (hkeyword : keywordAt k t = some r)
    (hword : wordAt r = some (w, rest)) :
    ((spanOf t r w).shift before.length).IsBehind (bytes k) (before ++ t) := by
  obtain ⟨s, hne, hs, rfl, _⟩ := keywordAt_eq_some_iff.mp hkeyword
  obtain ⟨rfl, hwne, hw⟩ := wordAt_eq_some hword
  have hrest := beginsOutside_of_wordAt hword
  have hline : before ++ (bytes k ++ (s ++ (w ++ rest))) = before ++ bytes k ++ s ++ (w ++ rest) := by
    simp only [List.append_assoc]
  have hspan : (spanOf (bytes k ++ (s ++ (w ++ rest))) (w ++ rest) w).shift before.length =
      ⟨(before ++ bytes k ++ s).length, (before ++ bytes k ++ s).length + w.length⟩ := by
    rw [← List.append_assoc, spanOf_behind, Span.shift_mk]
    simp only [List.length_append, Nat.add_assoc]
  rw [hspan]
  refine ⟨?_, ?_⟩
  · rw [hline]
    exact isRun_append hwne hw (endsOutside_append hs (absurd · hne)) hrest
  · have hlength : (before ++ bytes k ++ s).length = (before ++ bytes k).length + s.length :=
      List.length_append
    rw [hline, List.append_assoc (before ++ bytes k), hlength]
    exact wordBefore_keyword hbefore hk.1 hk.2 hs

/-- A search finds its match where a word can begin. -/
theorem searchWord_boundary {α : Type} {at? : Text → Option α} {afterWord : Bool} {offset i : Nat}
    {t : Text} {m : α} (h : searchWord at? afterWord offset t = some (i, m)) :
    ∃ before rest, t = before ++ rest ∧ i = offset + before.length ∧ at? rest = some m ∧
      (before = [] → afterWord = false) ∧ EndsOutside before := by
  induction t generalizing afterWord offset with
  | nil => cases h
  | cons b t ih =>
      rw [searchWord] at h
      split at h
      · rename_i m' hm
        cases h
        split at hm
        · cases hm
        · rename_i hflag
          exact ⟨[], b :: t, rfl, rfl, hm, fun _ => Bool.eq_false_iff.mpr hflag, endsOutside_nil⟩
      · obtain ⟨before, rest, rfl, rfl, hm, hflag, hends⟩ := ih h
        refine ⟨b :: before, rest, rfl, ?_, hm, (absurd · (List.cons_ne_nil _ _)), ?_⟩
        · rw [List.length_cons]
          omega
        · cases before with
          | nil => exact endsOutside_concat (t := []) (hflag rfl)
          | cons c before => exact hends

theorem isBehind_of_namedAt {k : String} (hk : IsKeyword k) {line : Text} {r : Span}
    (h : (searchWord (namedAt k) false 0 line).map (fun (i, r) => r.shift i) = some r) :
    r.IsBehind (bytes k) line := by
  obtain ⟨⟨i, s⟩, hsearch, rfl⟩ := Option.map_eq_some_iff.mp h
  obtain ⟨before, rest, rfl, rfl, hnamed, _, hbefore⟩ := searchWord_boundary hsearch
  obtain ⟨u, hkeyword, hnamed⟩ := Option.bind_eq_some_iff.mp hnamed
  obtain ⟨⟨w, v⟩, hword, hnamed⟩ := Option.bind_eq_some_iff.mp hnamed
  cases hnamed
  rw [Nat.zero_add]
  exact isBehind_keyword hk hbefore hkeyword hword

theorem isBehind_className? {line : Text} {r : Span} (h : className? line = some r) :
    r.IsBehind (bytes "class") line :=
  isBehind_of_namedAt (by decide) h

theorem isBehind_namespaceName? {line : Text} {r : Span} (h : namespaceName? line = some r) :
    r.IsBehind (bytes "namespace") line :=
  isBehind_of_namedAt (by decide) h

/-- The name of an enum stands behind `enum` itself, unless another keyword comes between. -/
theorem isBehind_enum? {line : Text} {e : EnumHead} (h : enum? line = some e)
    (hplain : e.isScoped = false) : e.name.IsBehind (bytes "enum") line := by
  obtain ⟨⟨i, e'⟩, hsearch, rfl⟩ := Option.map_eq_some_iff.mp h
  obtain ⟨before, rest, rfl, rfl, henum, _, hbefore⟩ := searchWord_boundary hsearch
  obtain ⟨r, hkeyword, henum⟩ := Option.bind_eq_some_iff.mp henum
  dsimp only at henum hplain
  rw [Option.orElse_eq_or, Option.or_eq_some_iff] at henum
  rcases henum with hscoped | ⟨_, hname⟩
  · obtain ⟨s, _, hscoped⟩ := Option.bind_eq_some_iff.mp hscoped
    obtain ⟨w, _, hscoped⟩ := Option.bind_eq_some_iff.mp hscoped
    cases hscoped
    cases hplain
  · obtain ⟨⟨w, v⟩, hword, hname⟩ := Option.bind_eq_some_iff.mp hname
    cases hname
    rw [Nat.zero_add]
    exact isBehind_keyword (by decide) hbefore hkeyword hword

/-! ## Enumerators -/

/-- A closing brace or the end of the line stands behind a body. -/
theorem beginsOutside_closingOffset (depth : Nat) (t : Text) :
    BeginsOutside (t.drop (closingOffset depth t)) := by
  induction t generalizing depth with
  | nil => nofun
  | cons b t ih =>
      unfold closingOffset
      split
      · exact ih (depth + 1)
      · split
        · rename_i hclose
          have hhere : BeginsOutside (b :: t) := by
            intro c hc
            rw [List.head?_cons, Option.mem_some_iff] at hc
            rw [← hc, hclose]
            rfl
          split
          · exact hhere
          · exact hhere
          · exact ih _
        · exact ih depth

/-- The body of a brace lies between the brace and a byte outside words. -/
theorem split_of_braceBody? {line : Text} {start : Nat} {body : Span}
    (h : braceBody? line start = some body) :
    ∃ front rest, line = front ++ [123] ++ (body.of line ++ rest) ∧
      body.start = (front ++ [123]).length ∧
      body.stop = (front ++ [123] ++ body.of line).length ∧ BeginsOutside rest := by
  obtain ⟨i, hi, rfl⟩ := Option.map_eq_some_iff.mp h
  have hlt := Text.lt_of_indexOf? hi
  rw [List.length_drop] at hlt
  dsimp only
  generalize hclose : closingOffset 1 (line.drop (start + i + 1)) = n
  have hof : Span.of ⟨start + i + 1, start + i + 1 + n⟩ line =
      (line.drop (start + i + 1)).take n := by
    rw [Span.of, Text.slice, Nat.add_sub_cancel_left]
  have hfront : (line.take (start + i) ++ [123]).length = start + i + 1 := by
    rw [List.length_append, List.length_take, List.length_singleton]
    omega
  have hle : n ≤ (line.drop (start + i + 1)).length := hclose ▸ closingOffset_le 1 _
  refine ⟨line.take (start + i), (line.drop (start + i + 1)).drop n, ?_, hfront.symm, ?_, ?_⟩
  · rw [hof, List.take_append_drop, List.append_assoc, List.singleton_append]
    calc line = line.take start ++ line.drop start := (List.take_append_drop start line).symm
      _ = line.take start ++
          ((line.drop start).take i ++ 123 :: (line.drop start).drop (i + 1)) := by
        rw [← Text.split_of_indexOf? hi]
      _ = line.take (start + i) ++ 123 :: line.drop (start + i + 1) := by
        rw [← List.append_assoc, ← List.take_add, List.drop_drop, Nat.add_assoc]
  · rw [List.length_append, hfront, hof, List.length_take, Nat.min_eq_left hle]
  · rw [← hclose]
    exact beginsOutside_closingOffset 1 _

/-- A site names what stands on the line at the range. -/
def Names (s : Site) (r : Span) (line : Text) : Prop := s.name = r.of line ∧ s.col = r.start

theorem enumeratorAt_eq_some {item : Text} {r : Span} (h : enumeratorAt item = some r) :
    ∃ s w rest, item = s ++ (w ++ rest) ∧ IsBlanks s ∧ w ≠ [] ∧ (∀ b ∈ w, isWordByte b = true) ∧
      BeginsOutside rest ∧ r = ⟨s.length, s.length + w.length⟩ := by
  obtain ⟨⟨w, rest⟩, hword, h⟩ := Option.bind_eq_some_iff.mp h
  obtain ⟨hitem, hne, hw⟩ := wordAt_eq_some hword
  have hsplit : item = item.takeWhile Text.isBlank ++ (w ++ rest) := by
    rw [← hitem, List.takeWhile_append_dropWhile]
  dsimp only at h
  split at h
  · cases h
  · cases h
    refine ⟨item.takeWhile Text.isBlank, w, rest, hsplit, fun b hb => List.mem_takeWhile_imp hb, hne,
      hw, beginsOutside_of_wordAt hword, ?_⟩
    rw [hitem]
    nth_rewrite 1 [hsplit]
    exact spanOf_behind _ _ _

/-- An enumerator of the body: a run in it with no word before. -/
structure IsEnumerator (s : Site) (line : Text) (body : Span) : Prop where
  role : s.role = .enumValue
  place : ∃ r : Span, r.IsBehind [] line ∧ body.start ≤ r.start ∧ r.stop ≤ body.stop ∧ Names s r line

theorem IsEnumerator.widen {s : Site} {line : Text} {body body' : Span}
    (h : IsEnumerator s line body) (hstart : body'.start ≤ body.start)
    (hstop : body.stop ≤ body'.stop) : IsEnumerator s line body' := by
  obtain ⟨r, hr, hlow, hhigh, hnames⟩ := h.place
  exact ⟨h.role, r, hr, Nat.le_trans hstart hlow, Nat.le_trans hhigh hstop, hnames⟩

/-- The enumerator of an item between a brace or comma and a byte outside words. -/
theorem isEnumerator_item {front item more : Text} {m : UInt8} (hm : m = 123 ∨ m = 44)
    (hmore : BeginsOutside more) {r : Span} (h : enumeratorAt item = some r) :
    IsEnumerator
      { role := .enumValue, name := r.of item, col := (r.shift (front ++ [m]).length).start }
      (front ++ [m] ++ (item ++ more))
      ⟨(front ++ [m]).length, (front ++ [m] ++ item).length⟩ := by
  have hword : isWordByte m = false := by rcases hm with rfl | rfl <;> rfl
  have hblank : Text.isBlank m = false := by rcases hm with rfl | rfl <;> rfl
  have hnames := ((isWordIn_enumeratorAt h).append more).1.shift (front ++ [m])
  have hof := ((isWordIn_enumeratorAt h).append more).2
  refine ⟨rfl, r.shift (front ++ [m]).length, ⟨?_, ?_⟩, ?_, ?_, hof ▸ hnames.2.symm, rfl⟩
  all_goals
    obtain ⟨s, w, rest, rfl, hs, hne, hw, hrest, rfl⟩ := enumeratorAt_eq_some h
    rw [Span.shift_mk]
  · have hline : front ++ [m] ++ (s ++ (w ++ rest) ++ more) =
        front ++ [m] ++ s ++ (w ++ (rest ++ more)) := by
      simp only [List.append_assoc]
    have hlength : (front ++ [m]).length + s.length = (front ++ [m] ++ s).length :=
      List.length_append.symm
    have hafter : BeginsOutside (rest ++ more) := by
      cases rest with
      | nil => exact hmore
      | cons b rest => exact hrest
    rw [hline, ← Nat.add_assoc, hlength]
    exact isRun_append hne hw (endsOutside_append hs fun _ => endsOutside_concat hword) hafter
  · rw [List.append_assoc s]
    exact wordBefore_mark hword hblank hs
  · exact Nat.le_add_right _ _
  · simp only [List.length_append]
    omega

/-- The items stand between a brace or comma and a byte outside words, with commas between them. -/
theorem isEnumerator_of_mem {front after : Text} {m : UInt8} (hm : m = 123 ∨ m = 44)
    (hafter : BeginsOutside after) {items : List Text} {s : Site}
    (h : s ∈ enumeratorsFrom (front ++ [m]).length items) :
    IsEnumerator s (front ++ [m] ++ (Text.joinWith [44] items ++ after))
      ⟨(front ++ [m]).length, (front ++ [m] ++ Text.joinWith [44] items).length⟩ := by
  induction items generalizing front m with
  | nil => cases h
  | cons item items ih =>
      -- what follows the item begins with a comma or is what follows all of them
      obtain ⟨tail, htail, houtside⟩ : ∃ tail, Text.joinWith [44] (item :: items) = item ++ tail ∧
          BeginsOutside (tail ++ after) := by
        cases items with
        | nil => exact ⟨[], (List.append_nil item).symm, hafter⟩
        | cons next items =>
            refine ⟨[44] ++ Text.joinWith [44] (next :: items), by simp [Text.joinWith], ?_⟩
            intro b hb
            cases hb
            rfl
      have hrest : s ∈ enumeratorsFrom ((front ++ [m]).length + item.length + 1) items →
          IsEnumerator s (front ++ [m] ++ (Text.joinWith [44] (item :: items) ++ after))
            ⟨(front ++ [m]).length, (front ++ [m] ++ Text.joinWith [44] (item :: items)).length⟩ := by
        intro h
        cases items with
        | nil => cases h
        | cons next items =>
            have hlength : (front ++ [m]).length + item.length + 1 =
                (front ++ [m] ++ item ++ [44]).length := by
              simp only [List.length_append, List.length_singleton]
            have hline : front ++ [m] ++ (Text.joinWith [44] (item :: next :: items) ++ after) =
                front ++ [m] ++ item ++ [44] ++ (Text.joinWith [44] (next :: items) ++ after) := by
              simp [Text.joinWith]
            rw [hlength] at h
            rw [hline]
            refine (ih (.inr rfl) h).widen ?_ ?_
            · simp only [List.length_append]
              omega
            · simp [Text.joinWith]
      rw [enumeratorsFrom] at h
      split at h
      · rename_i r hr
        rcases List.mem_cons.mp h with rfl | h
        · rw [htail, List.append_assoc item]
          refine (isEnumerator_item hm houtside hr).widen (Nat.le_refl _) ?_
          simp only [List.length_append]
          omega
        · exact hrest h
      · exact hrest h

theorem isEnumerator_of_enumerators {line : Text} {start : Nat} {body : Span} {s : Site}
    (hbody : braceBody? line start = some body) (h : s ∈ enumerators line body) :
    IsEnumerator s line body := by
  obtain ⟨front, rest, hline, hstart, hstop, hrest⟩ := split_of_braceBody? hbody
  unfold enumerators at h
  rw [hstart] at h
  have hmem := isEnumerator_of_mem (.inl rfl) hrest h
  rw [Text.joinWith_splitOn, ← hline, ← hstart, ← hstop] at hmem
  exact hmem

/-- Enumerators come in the order of the line. -/
theorem pairwise_enumeratorsFrom (offset : Nat) (items : List Text) :
    (∀ s ∈ enumeratorsFrom offset items, (offset : Int) ≤ s.col) ∧
      (enumeratorsFrom offset items).Pairwise (·.col < ·.col) := by
  induction items generalizing offset with
  | nil => exact ⟨nofun, .nil⟩
  | cons item items ih =>
      obtain ⟨hlow, hpairwise⟩ := ih (offset + item.length + 1)
      have hlow' : ∀ s ∈ enumeratorsFrom (offset + item.length + 1) items, (offset : Int) ≤ s.col := by
        intro s hs
        have := hlow s hs
        omega
      rw [enumeratorsFrom]
      split
      · rename_i r hr
        have hstop := (isWordIn_enumeratorAt hr).stop_le
        refine ⟨?_, List.pairwise_cons.mpr ⟨?_, hpairwise⟩⟩
        · intro s hs
          rcases List.mem_cons.mp hs with rfl | hs
          · simp only [Span.shift]
            omega
          · exact hlow' s hs
        · intro s hs
          have := hlow s hs
          simp only [Span.shift]
          omega
      · exact ⟨hlow', hpairwise⟩

end Classifier

end LineReview
