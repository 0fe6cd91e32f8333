import LineReview.Proofs.Text.Blanks
import Mathlib.Data.List.DropRight

/-!
# What trimming leaves

A part of a text that is cut out between two code points has the code points that stood there,
even where bytes spell none (`runes_ofRunes_prefix`, `runes_ofRunes_suffix`). So trimming leaves
a text whose first and last code points are no white space (`runes_trim`), and no bytes that
spell white space stand at its ends (`isTrimmed_trim`).
-/

namespace LineReview.Text

/-! ## Code points of a part -/

/-- The first code point of a text is there as soon as its bytes are. -/
theorem firstRune_take {a : UInt8} {t s : Text}
    (h : (firstRune a (t ++ s)).raw.length ≤ t.length + 1) :
    firstRune a t = firstRune a (t ++ s) := by
  unfold firstRune at h ⊢
  rcases t with _ | ⟨b, _ | ⟨c, _ | ⟨d, t⟩⟩⟩
  · rcases s with _ | ⟨x, _ | ⟨y, _ | ⟨z, s⟩⟩⟩ <;> grind [Rune.stray]
  · rcases s with _ | ⟨x, _ | ⟨y, s⟩⟩ <;> grind [Rune.stray]
  · rcases s with _ | ⟨x, s⟩ <;> grind [Rune.stray]
  · rfl

/-- The bytes of the first code point are the first byte and the ones that it takes besides. -/
theorem raw_firstRune_eq (a : UInt8) (t : Text) :
    (firstRune a t).raw = a :: t.take ((firstRune a t).raw.length - 1) := by
  unfold firstRune
  rcases t with _ | ⟨b, _ | ⟨c, _ | ⟨d, t⟩⟩⟩ <;> dsimp only <;> split_ifs <;> rfl

theorem ofRunes_prefix {rs : List Rune} {t : Text} (h : rs <+: runes t) : ofRunes rs <+: t := by
  obtain ⟨s, hs⟩ := h
  refine ⟨ofRunes s, ?_⟩
  rw [← ofRunes_runes t, ← hs, ofRunes, ofRunes, ofRunes, List.flatMap_append]

/-- The code points of the front of a text that ends between two of them. -/
theorem runes_ofRunes_prefix {rs : List Rune} {t : Text} (h : rs <+: runes t) :
    runes (ofRunes rs) = rs := by
  induction t using runes_induction generalizing rs with
  | hnil =>
      rw [List.prefix_nil.mp h]
      rfl
  | hcons a t ih =>
      cases rs with
      | nil => rfl
      | cons r rs =>
          rw [runes_cons] at h
          obtain ⟨rfl, hrest⟩ := List.cons_prefix_cons.mp h
          have hraw := raw_firstRune_eq a t
          have hle := (raw_firstRune a t).2
          obtain ⟨s, hs⟩ := ofRunes_prefix hrest
          generalize hk : (firstRune a t).raw.length - 1 = k at hraw hle hs hrest ih
          have htake : t.take k ++ ofRunes rs ++ s = t := by
            rw [List.append_assoc, hs, List.take_append_drop]
          have hfirst : firstRune a (t.take k ++ ofRunes rs) = firstRune a t := by
            rw [firstRune_take (s := s), htake]
            rw [htake, List.length_append, List.length_take_of_le hle]
            omega
          have hcut : ofRunes (firstRune a t :: rs) = a :: (t.take k ++ ofRunes rs) := by
            rw [ofRunes, List.flatMap_cons, hraw]
            rfl
          have hdrop : (t.take k ++ ofRunes rs).drop k = ofRunes rs :=
            List.drop_left' (List.length_take_of_le hle)
          rw [hcut, runes_cons, hfirst, hk, hdrop, ih hrest]

theorem runes_ofRunes_suffix {rs : List Rune} {t : Text} (h : rs <:+ runes t) :
    runes (ofRunes rs) = rs := by
  induction t using runes_induction with
  | hnil =>
      rw [List.suffix_nil.mp h]
      rfl
  | hcons a t ih =>
      rw [runes_cons] at h
      rcases List.suffix_cons_iff.mp h with rfl | hrest
      · rw [← runes_cons, ofRunes_runes]
      · exact ih hrest

/-! ## Trimming -/

theorem runes_trimLeft (t : Text) :
    runes (trimLeft t) = (runes t).dropWhile fun r => isSpace r.code :=
  runes_ofRunes_suffix (List.dropWhile_suffix _)

theorem runes_trimRight (t : Text) :
    runes (trimRight t) = (runes t).rdropWhile fun r => isSpace r.code :=
  runes_ofRunes_prefix (List.rdropWhile_prefix _ _)

/-- The first and the last code point that trimming leaves are no white space. -/
theorem runes_trim (t : Text) :
    (∀ r ∈ (runes (trim t)).head?, isSpace r.code = false) ∧
    ∀ r ∈ (runes (trim t)).getLast?, isSpace r.code = false := by
  rw [trim, runes_trimRight, runes_trimLeft]
  generalize hrest : (runes t).dropWhile (fun r => isSpace r.code) = rest
  constructor
  · intro r hr
    -- trimming on the right keeps the front of what trimming on the left leaves
    obtain ⟨s, hs⟩ := List.rdropWhile_prefix (fun r : Rune => isSpace r.code) rest
    have hhead : rest.head? = some r := by
      rw [← hs, List.head?_append, Option.mem_def.mp hr, Option.some_or]
    rw [← hrest] at hhead
    have hnot := List.head?_dropWhile_not (fun r : Rune => isSpace r.code) (runes t)
    rw [hhead] at hnot
    simpa using hnot
  · intro r hr
    obtain ⟨hne, rfl⟩ := List.mem_getLast?_eq_getLast hr
    exact Bool.eq_false_iff.mpr (List.rdropWhile_last_not _ _ hne)

/-! ## Bytes that spell white space -/

/-- A properly spelled code point stays one, whatever follows. -/
theorem firstRune_extend {a : UInt8} {t : Text} (hraw : (firstRune a t).raw.length = t.length + 1)
    (hproper : (firstRune a t).isStray = false) (s : Text) :
    firstRune a (t ++ s) = firstRune a t := by
  unfold firstRune Rune.isStray at *
  rcases t with _ | ⟨b, _ | ⟨c, _ | ⟨d, t⟩⟩⟩
  · rcases s with _ | ⟨x, _ | ⟨y, _ | ⟨z, s⟩⟩⟩ <;> grind [Rune.stray]
  · rcases s with _ | ⟨x, _ | ⟨y, s⟩⟩ <;> grind [Rune.stray]
  · rcases s with _ | ⟨x, s⟩ <;> grind [Rune.stray]
  · rfl

theorem runes_proper_append {u : Text} {r : Rune} (hu : runes u = [r]) (hr : r.isStray = false)
    (t : Text) : runes (u ++ t) = r :: runes t := by
  cases u with
  | nil => cases hu
  | cons a v =>
      rw [runes_cons, List.cons.injEq] at hu
      obtain ⟨hfirst, hnone⟩ := hu
      have hdrop : v.drop ((firstRune a v).raw.length - 1) = [] := by
        rw [← ofRunes_runes (v.drop _), hnone]
        rfl
      have hle := raw_firstRune a v
      have hpos := List.length_pos_iff.mpr hle.1
      have hlength : (firstRune a v).raw.length = v.length + 1 := by
        rw [List.drop_eq_nil_iff] at hdrop
        omega
      rw [List.cons_append, runes_cons, firstRune_extend hlength (hfirst ▸ hr), hfirst]
      rw [hfirst] at hlength
      rw [hlength, Nat.add_sub_cancel, List.drop_left]

/-- The code points of white space. -/
def spaces : List Nat :=
  [9, 10, 11, 12, 13, 0x20, 0x85, 0xA0, 0x1680, 0x2000, 0x2001, 0x2002, 0x2003, 0x2004, 0x2005,
    0x2006, 0x2007, 0x2008, 0x2009, 0x200A, 0x2028, 0x2029, 0x202F, 0x205F, 0x3000]

theorem mem_spaces {c : Nat} (h : isSpace c = true) : c ∈ spaces := by
  simp only [isSpace, Bool.or_eq_true, Bool.and_eq_true, decide_eq_true_eq, beq_iff_eq] at h
  simp only [spaces, List.mem_cons, List.not_mem_nil, or_false]
  omega

/-- White space is spelled by bytes that stand for nothing else, the first of which continues no
other sequence. -/
theorem spelled_space {c : Nat} (h : isSpace c = true) :
    runes (encodeCode c) = [⟨c, encodeCode c⟩] ∧ Rune.isStray ⟨c, encodeCode c⟩ = false ∧
    ∃ x s, encodeCode c = x :: s ∧ isContinuation x = false := by
  have hall : ∀ c ∈ spaces, runes (encodeCode c) = [⟨c, encodeCode c⟩] ∧
      Rune.isStray ⟨c, encodeCode c⟩ = false ∧
      (encodeCode c).head?.map isContinuation = some false := by
    decide
  obtain ⟨hrunes, hproper, hhead⟩ := hall c (mem_spaces h)
  refine ⟨hrunes, hproper, ?_⟩
  cases hcode : encodeCode c with
  | nil =>
      rw [hcode] at hhead
      cases hhead
  | cons x s =>
      rw [hcode] at hhead
      exact ⟨x, s, rfl, Option.some.inj hhead⟩

/-- No bytes at either end spell a code point of white space. -/
def IsTrimmed (t : Text) : Prop :=
  ∀ c, isSpace c = true → ¬ encodeCode c <+: t ∧ ¬ encodeCode c <:+ t

/-- What trimming leaves neither starts nor ends with white space. -/
theorem isTrimmed_trim (t : Text) : IsTrimmed (trim t) := by
  obtain ⟨hhead, hlast⟩ := runes_trim t
  intro c hc
  obtain ⟨hrunes, hproper, x, u, hcode, hx⟩ := spelled_space hc
  constructor
  · rintro ⟨s, hs⟩
    rw [← hs, runes_proper_append hrunes hproper] at hhead
    rw [hhead _ rfl] at hc
    cases hc
  · rintro ⟨s, hs⟩
    rw [← hs, hcode, runes_append_start hx, ← hcode, hrunes] at hlast
    rw [hlast _ List.getLast?_concat] at hc
    cases hc

end LineReview.Text
