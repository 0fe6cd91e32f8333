import LineReview.Text.Space
import Mathlib.Data.List.TakeWhile
import Mathlib.Tactic.SplitIfs

/-!
# Blanks behind a text

What blanks at the end of a text do to the functions that texts are looked at by.
Trimming on the right does not see them (`trimRight_append`). Searching for
something without blanks finds it in front of them or not at all
(`startsWith_append`, `strip?_append`, `hasInfix_append`). Leading white space is
the same, unless there is nothing else in the text (`leading_append`,
`trimLeft_append`).

Blanks are ASCII bytes, and no sequence of bytes that spells a code point goes on
over one of these, or over any other byte that begins a sequence (`runes_append_start`).
So a text and the blanks behind it are cut into code points separately (`runes_append`),
even when the text ends in the middle of a sequence.
-/

namespace LineReview.Text

/-- Nothing but blanks. -/
def IsBlanks (t : Text) : Prop := ∀ b ∈ t, isBlank b = true

/-- No blanks at all. -/
def IsSolid (t : Text) : Prop := ∀ b ∈ t, isBlank b = false

-- byte by byte of the text, and not over all bytes that there are
instance (t : Text) : Decidable (IsBlanks t) := List.decidableBAll (isBlank · = true) t

instance (t : Text) : Decidable (IsSolid t) := List.decidableBAll (isBlank · = false) t

theorem eq_of_isBlank {b : UInt8} (h : isBlank b = true) :
    b = 9 ∨ b = 10 ∨ b = 12 ∨ b = 13 ∨ b = 32 := by
  simpa [isBlank, or_assoc] using h

theorem IsBlanks.tail {b : UInt8} {t : Text} (h : IsBlanks (b :: t)) : IsBlanks t :=
  fun c hc => h c (List.mem_cons_of_mem b hc)

theorem IsSolid.tail {b : UInt8} {t : Text} (h : IsSolid (b :: t)) : IsSolid t :=
  fun c hc => h c (List.mem_cons_of_mem b hc)

/-- What is not blank is no blank. -/
theorem IsBlanks.notMem {t : Text} (h : IsBlanks t) {c : UInt8} (hc : isBlank c = false) :
    c ∉ t := by
  intro hmem
  rw [h c hmem] at hc
  cases hc

/-! ## Taking and dropping -/

/-- Bytes behind a text that do not satisfy the condition are never taken. -/
theorem takeWhile_append_of_stop {p : UInt8 → Bool} {s : Text} (hs : ∀ b ∈ s, p b = false)
    (t : Text) :
    (t ++ s).takeWhile p = t.takeWhile p ∧ (t ++ s).dropWhile p = t.dropWhile p ++ s := by
  induction t with
  | nil =>
      cases s with
      | nil => exact ⟨rfl, rfl⟩
      | cons b s =>
          have hb : ¬ p b = true := Bool.eq_false_iff.mp (hs b List.mem_cons_self)
          exact ⟨List.takeWhile_cons_of_neg hb, List.dropWhile_cons_of_neg hb⟩
  | cons c t ih =>
      rw [List.cons_append]
      by_cases hc : p c = true
      · rw [List.takeWhile_cons_of_pos hc, List.takeWhile_cons_of_pos hc,
          List.dropWhile_cons_of_pos hc, List.dropWhile_cons_of_pos hc, ih.1, ih.2]
        exact ⟨rfl, rfl⟩
      · rw [List.takeWhile_cons_of_neg hc, List.takeWhile_cons_of_neg hc,
          List.dropWhile_cons_of_neg hc, List.dropWhile_cons_of_neg hc]
        exact ⟨rfl, rfl⟩

/-- Bytes behind a text that satisfy the condition are dropped only if all of the text is. -/
theorem dropWhile_append_of_all {α : Type} {p : α → Bool} {s : List α} (hs : ∀ b ∈ s, p b = true)
    (t : List α) :
    (t ++ s).dropWhile p = if t.dropWhile p = [] then [] else t.dropWhile p ++ s := by
  have hnone : s.dropWhile p = [] := List.dropWhile_eq_nil_iff.mpr hs
  rw [List.dropWhile_append, hnone]
  simp only [List.isEmpty_iff]

/-! ## Searching -/

section Search

variable {s p : Text}

theorem strip?_append (hs : IsBlanks s) (hp : IsSolid p) (t : Text) :
    strip? (t ++ s) p = (strip? t p).map (· ++ s) := by
  induction p generalizing t with
  | nil => rw [strip?, strip?, Option.map_some]
  | cons c p ih =>
      cases t with
      | nil =>
          cases s with
          | nil => rfl
          | cons b s =>
              have hne : (b == c) = false := by
                refine beq_eq_false_iff_ne.mpr ?_
                rintro rfl
                exact hs.notMem (hp b List.mem_cons_self) List.mem_cons_self
              change (if b == c then strip? s p else none) = none
              rw [hne]
              rfl
      | cons b t =>
          rw [List.cons_append, strip?, strip?]
          split
          · exact ih hp.tail t
          · rfl

theorem startsWith_eq_isSome (t p : Text) : startsWith t p = (strip? t p).isSome := by
  fun_induction strip? t p with
  | case1 => rw [startsWith, Option.isSome_some]
  | case2 => rfl
  | case3 b t c p hbc ih =>
      rw [startsWith, hbc, Bool.true_and, ih]
  | case4 b t c p hbc =>
      rw [startsWith, Bool.eq_false_iff.mpr hbc, Bool.false_and]
      rfl

theorem startsWith_append (hs : IsBlanks s) (hp : IsSolid p) (t : Text) :
    startsWith (t ++ s) p = startsWith t p := by
  rw [startsWith_eq_isSome, startsWith_eq_isSome, strip?_append hs hp, Option.isSome_map]

theorem hasInfix_blanks (hs : IsBlanks s) (hp : IsSolid p) (hne : p ≠ []) :
    hasInfix p s = false := by
  have hempty : p.isEmpty = false := by
    rw [Bool.eq_false_iff]
    exact fun h => hne (List.isEmpty_iff.mp h)
  induction s with
  | nil => exact hempty
  | cons b s ih =>
      have hstart := startsWith_append hs hp []
      rw [List.nil_append] at hstart
      rw [hasInfix, ih hs.tail, hstart, Bool.or_false]
      cases p with
      | nil => exact absurd rfl hne
      | cons c p => rfl

theorem hasInfix_append (hs : IsBlanks s) (hp : IsSolid p) (hne : p ≠ []) (t : Text) :
    hasInfix p (t ++ s) = hasInfix p t := by
  induction t with
  | nil =>
      have hnil : hasInfix p [] = false := hasInfix_blanks nofun hp hne
      rw [List.nil_append, hasInfix_blanks hs hp hne, hnil]
  | cons b t ih =>
      have hstart := startsWith_append hs hp (b :: t)
      rw [List.cons_append] at hstart
      rw [List.cons_append, hasInfix, hasInfix, ih, hstart]

theorem indexOf?_append (hs : IsBlanks s) {c : UInt8} (hc : isBlank c = false) (t : Text) :
    indexOf? c (t ++ s) = indexOf? c t := by
  induction t with
  | nil =>
      rw [List.nil_append]
      induction s with
      | nil => rfl
      | cons b s ih =>
          have hne : b ≠ c := fun h => hs.notMem hc (h ▸ List.mem_cons_self)
          change (if b = c then some 0 else (indexOf? c s).map (· + 1)) = none
          rw [if_neg hne, ih hs.tail]
          rfl
  | cons b t ih => rw [List.cons_append, indexOf?, indexOf?, ih]

/-- What stands behind the last separator only makes the last part longer. -/
theorem splitOn_append_of_notMem {sep : UInt8} (hs : sep ∉ s) (t : Text) :
    ∃ init last, splitOn sep t = init ++ [last] ∧ splitOn sep (t ++ s) = init ++ [last ++ s] := by
  induction t with
  | nil =>
      refine ⟨[], [], rfl, ?_⟩
      rw [List.nil_append, List.nil_append]
      induction s with
      | nil => rfl
      | cons b s ih =>
          rw [List.mem_cons, not_or] at hs
          rw [splitOn, if_neg (Ne.symm hs.1), ih hs.2]
  | cons b t ih =>
      obtain ⟨init, last, hsplit, hsplit'⟩ := ih
      rw [List.cons_append, splitOn, splitOn, hsplit, hsplit']
      by_cases hb : b = sep
      · rw [if_pos hb, if_pos hb]
        exact ⟨[] :: init, last, rfl, rfl⟩
      · rw [if_neg hb, if_neg hb]
        cases init with
        | nil => exact ⟨[], b :: last, rfl, rfl⟩
        | cons q qs => exact ⟨(b :: q) :: qs, last, rfl, rfl⟩

end Search

/-! ## Code points -/

/-- The first code point of a text, by its first byte and the bytes after it. -/
def firstRune (a : UInt8) (t : Text) : Rune :=
  if a < 0x80 then ⟨a.toNat, [a]⟩
  else match t with
    | [] => .stray a
    | [b] => if isPair a b then ⟨a.toNat % 32 * 64 + low6 b, [a, b]⟩ else .stray a
    | [b, c] =>
      if isPair a b then ⟨a.toNat % 32 * 64 + low6 b, [a, b]⟩
      else if isTriple a b c then ⟨(a.toNat % 16 * 64 + low6 b) * 64 + low6 c, [a, b, c]⟩
      else .stray a
    | b :: c :: d :: _ =>
      if isPair a b then ⟨a.toNat % 32 * 64 + low6 b, [a, b]⟩
      else if isTriple a b c then ⟨(a.toNat % 16 * 64 + low6 b) * 64 + low6 c, [a, b, c]⟩
      else if isQuad a b c d then
        ⟨((a.toNat % 8 * 64 + low6 b) * 64 + low6 c) * 64 + low6 d, [a, b, c, d]⟩
      else .stray a

theorem runes_cons (a : UInt8) (t : Text) :
    runes (a :: t) = firstRune a t :: runes (t.drop ((firstRune a t).raw.length - 1)) := by
  rcases t with _ | ⟨b, _ | ⟨c, _ | ⟨d, t⟩⟩⟩ <;> rw [runes, firstRune] <;> split_ifs <;> rfl

/-- A code point takes its first byte, and no more bytes than there are. -/
theorem raw_firstRune (a : UInt8) (t : Text) :
    (firstRune a t).raw ≠ [] ∧ (firstRune a t).raw.length - 1 ≤ t.length := by
  unfold firstRune
  rcases t with _ | ⟨b, _ | ⟨c, _ | ⟨d, t⟩⟩⟩ <;> dsimp only <;> split_ifs <;> simp [Rune.stray]

/-- Induction on a text, from one code point to the next. -/
theorem runes_induction {P : Text → Prop} (hnil : P [])
    (hcons : ∀ a t, P (t.drop ((firstRune a t).raw.length - 1)) → P (a :: t)) (t : Text) : P t := by
  induction hn : t.length using Nat.strongRecOn generalizing t with
  | ind n ih =>
      cases t with
      | nil => exact hnil
      | cons a t =>
          refine hcons a t (ih _ ?_ _ rfl)
          rw [← hn, List.length_drop, List.length_cons]
          omega

theorem raw_ne_nil_of_mem_runes {t : Text} {r : Rune} (h : r ∈ runes t) : r.raw ≠ [] := by
  induction t using runes_induction with
  | hnil => cases h
  | hcons a t ih =>
      rw [runes_cons] at h
      rcases List.mem_cons.mp h with rfl | h
      · exact (raw_firstRune a t).1
      · exact ih h

theorem firstRune_append {x : UInt8} (hx : isContinuation x = false) (a : UInt8) (t s : Text) :
    firstRune a (t ++ x :: s) = firstRune a t := by
  have hpair : isPair a x = false := by simp [isPair, hx]
  have htriple : ∀ b, isTriple a x b = false ∧ isTriple a b x = false := by
    simp [isTriple, hx]
  have hquad : ∀ b c,
      isQuad a x b c = false ∧ isQuad a b x c = false ∧ isQuad a b c x = false := by
    simp [isQuad, hx]
  -- how far the text reaches decides which of the bytes looked at is `x`
  unfold firstRune
  rcases t with _ | ⟨b, _ | ⟨c, _ | ⟨d, t⟩⟩⟩
  · rcases s with _ | ⟨y, _ | ⟨z, s⟩⟩ <;> simp [hpair, htriple, hquad]
  · rcases s with _ | ⟨y, s⟩ <;> simp [htriple, hquad]
  · simp [hquad]
  · simp

/-- A byte that is no continuation always begins a code point. -/
theorem runes_append_start {x : UInt8} (hx : isContinuation x = false) (t s : Text) :
    runes (t ++ x :: s) = runes t ++ runes (x :: s) := by
  induction t using runes_induction with
  | hnil => rfl
  | hcons a t ih =>
      rw [List.cons_append, runes_cons, runes_cons, firstRune_append hx,
        List.drop_append_of_le_length (raw_firstRune a t).2, ih]
      rfl

section Blanks

variable {s : Text}

theorem runes_append (hs : IsBlanks s) (t : Text) : runes (t ++ s) = runes t ++ runes s := by
  cases s with
  | nil => rw [List.append_nil, runes, List.append_nil]
  | cons x s =>
      refine runes_append_start ?_ t s
      rcases eq_of_isBlank (hs x List.mem_cons_self) with rfl | rfl | rfl | rfl | rfl <;> decide

/-- Blanks are white space. -/
theorem isSpace_of_mem_runes (hs : IsBlanks s) : ∀ r ∈ runes s, isSpace r.code = true := by
  induction s with
  | nil => nofun
  | cons x s ih =>
      obtain ⟨hascii, hspace⟩ : x < 0x80 ∧ isSpace x.toNat = true := by
        rcases eq_of_isBlank (hs x List.mem_cons_self) with rfl | rfl | rfl | rfl | rfl <;> decide
      have hfirst : firstRune x s = ⟨x.toNat, [x]⟩ := if_pos hascii
      rw [runes_cons, hfirst]
      intro r hr
      rcases List.mem_cons.mp hr with rfl | hr
      · exact hspace
      · exact ih hs.tail r hr

/-! ## Trimming -/

/-- Nothing remains exactly when there is nothing but white space. -/
theorem trimLeft_eq_nil_iff (t : Text) :
    trimLeft t = [] ↔ (runes t).dropWhile (fun r => isSpace r.code) = [] := by
  rw [trimLeft, ofRunes]
  constructor
  · intro h
    rw [List.flatMap_eq_nil_iff] at h
    rw [List.eq_nil_iff_forall_not_mem]
    intro r hr
    exact raw_ne_nil_of_mem_runes ((List.dropWhile_suffix _).subset hr) (h r hr)
  · intro h
    rw [h]
    rfl

theorem trimRight_append (hs : IsBlanks s) (t : Text) : trimRight (t ++ s) = trimRight t := by
  have hspace : ∀ r ∈ (runes s).reverse, isSpace r.code = true :=
    fun r hr => isSpace_of_mem_runes hs r (List.mem_reverse.mp hr)
  rw [trimRight, trimRight, runes_append hs, List.reverse_append,
    List.dropWhile_append_of_pos hspace]

theorem trimLeft_append (hs : IsBlanks s) (t : Text) :
    trimLeft (t ++ s) = if trimLeft t = [] then [] else trimLeft t ++ s := by
  have hnil := trimLeft_eq_nil_iff t
  rw [trimLeft, runes_append hs, dropWhile_append_of_all (isSpace_of_mem_runes hs)]
  by_cases hall : (runes t).dropWhile (fun r => isSpace r.code) = []
  · rw [if_pos hall, if_pos (hnil.mpr hall)]
    rfl
  · rw [if_neg hall, if_neg (mt hnil.mp hall), ofRunes, List.flatMap_append]
    exact congrArg (trimLeft t ++ ·) (ofRunes_runes s)

theorem leading_append (hs : IsBlanks s) (t : Text) :
    leading (t ++ s) = if trimLeft t = [] then t ++ s else leading t := by
  have hwhole := leading_append_trimLeft (t ++ s)
  have hfront := leading_append_trimLeft t
  rw [trimLeft_append hs] at hwhole
  split at hwhole
  · rw [List.append_nil] at hwhole
    rw [if_pos ‹_›, hwhole]
  · rw [if_neg ‹_›]
    rw [← List.append_assoc] at hwhole
    have hcut := List.append_cancel_right hwhole
    exact List.append_cancel_right (hcut.trans hfront.symm)

end Blanks

end LineReview.Text
