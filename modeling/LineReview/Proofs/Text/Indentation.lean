import LineReview.Proofs.Text.Blanks

/-!
# Blanks before a text

What blanks in front of a text do to the functions that texts are looked at by.
Trimming on the left does not see them (`trimLeft_prepend`), and trimming on the
right takes them only when nothing else is left (`trimRight_prepend`). Something
without blanks that a text holds or ends in is found in the same place
(`hasInfix_prepend`, `endsWith_prepend`).
-/

namespace LineReview.Text

variable {w p : Text}

/-! ## Searching -/

theorem strip?_blank {b : UInt8} (hb : isBlank b = true) (hp : IsSolid p) (hne : p ≠ []) (t : Text) :
    strip? (b :: t) p = none := by
  obtain ⟨c, p, rfl⟩ := List.exists_cons_of_ne_nil hne
  have hbc : ¬ (b == c) = true := by
    rw [beq_iff_eq]
    rintro rfl
    rw [hp b List.mem_cons_self] at hb
    cases hb
  rw [strip?, if_neg hbc]

theorem hasInfix_prepend (hw : IsBlanks w) (hp : IsSolid p) (hne : p ≠ []) (t : Text) :
    hasInfix p (w ++ t) = hasInfix p t := by
  induction w with
  | nil => rfl
  | cons b w ih =>
      rw [List.cons_append, hasInfix, startsWith_eq_isSome,
        strip?_blank (hw b List.mem_cons_self) hp hne, ih hw.tail]
      rfl

theorem endsWith_iff_suffix {t p : Text} : endsWith t p = true ↔ p <:+ t := by
  unfold endsWith
  rw [Bool.and_eq_true, decide_eq_true_eq, beq_iff_eq, List.suffix_iff_eq_drop]
  constructor
  · rintro ⟨_, h⟩
    exact h.symm
  · intro h
    refine ⟨?_, h.symm⟩
    have hlength := congrArg List.length h
    rw [List.length_drop] at hlength
    omega

/-- What holds no blank ends before the blanks in front. -/
theorem suffix_prepend (hw : IsBlanks w) (hp : IsSolid p) {t : Text} : p <:+ w ++ t ↔ p <:+ t := by
  refine ⟨?_, fun h => h.trans (List.suffix_append w t)⟩
  intro h
  rcases Nat.le_total p.length t.length with hle | hle
  · exact List.suffix_of_suffix_length_le h (List.suffix_append w t) hle
  · obtain ⟨u, rfl⟩ := List.suffix_of_suffix_length_le (List.suffix_append w t) h hle
    obtain ⟨v, hv⟩ := h
    rw [← List.append_assoc] at hv
    have hu : ∀ b ∈ u, isBlank b = true := fun b hb =>
      hw b (List.append_cancel_right hv ▸ List.mem_append_right v hb)
    have hnil : u = [] := by
      refine List.eq_nil_iff_forall_not_mem.mpr fun b hb => ?_
      have hblank := hu b hb
      rw [hp b (List.mem_append_left t hb)] at hblank
      cases hblank
    rw [hnil]
    exact List.suffix_rfl

theorem endsWith_prepend (hw : IsBlanks w) (hp : IsSolid p) (t : Text) :
    endsWith (w ++ t) p = endsWith t p := by
  rw [Bool.eq_iff_iff, endsWith_iff_suffix, endsWith_iff_suffix, suffix_prepend hw hp]

/-! ## Trimming -/

theorem runes_prepend (hw : IsBlanks w) (t : Text) : runes (w ++ t) = runes w ++ runes t := by
  induction w with
  | nil => rfl
  | cons b w ih =>
      have hascii : b < 0x80 := by
        rcases eq_of_isBlank (hw b List.mem_cons_self) with rfl | rfl | rfl | rfl | rfl <;> decide
      have hfirst : ∀ s, firstRune b s = ⟨b.toNat, [b]⟩ := fun s => if_pos hascii
      rw [List.cons_append, runes_cons, runes_cons, hfirst, hfirst, List.cons_append]
      exact congrArg (_ :: ·) (ih hw.tail)

theorem trimLeft_prepend (hw : IsBlanks w) (t : Text) : trimLeft (w ++ t) = trimLeft t := by
  rw [trimLeft, trimLeft, runes_prepend hw, List.dropWhile_append_of_pos (isSpace_of_mem_runes hw)]

/-- Nothing remains exactly when there is nothing but white space. -/
theorem trimRight_eq_nil_iff (t : Text) :
    trimRight t = [] ↔ (runes t).reverse.dropWhile (fun r => isSpace r.code) = [] := by
  constructor
  · intro h
    rw [trimRight, ofRunes, List.flatMap_eq_nil_iff] at h
    rw [List.eq_nil_iff_forall_not_mem]
    intro r hr
    have hmem : r ∈ runes t := List.mem_reverse.mp ((List.dropWhile_suffix _).subset hr)
    exact raw_ne_nil_of_mem_runes hmem (h r (List.mem_reverse.mpr hr))
  · intro h
    rw [trimRight, h]
    rfl

theorem trimRight_prepend (hw : IsBlanks w) (t : Text) :
    trimRight (w ++ t) = if trimRight t = [] then [] else w ++ trimRight t := by
  have hspace : ∀ r ∈ (runes w).reverse, isSpace r.code = true :=
    fun r hr => isSpace_of_mem_runes hw r (List.mem_reverse.mp hr)
  have hnil := trimRight_eq_nil_iff t
  rw [trimRight, runes_prepend hw, List.reverse_append, dropWhile_append_of_all hspace]
  by_cases hall : (runes t).reverse.dropWhile (fun r => isSpace r.code) = []
  · rw [if_pos hall, if_pos (hnil.mpr hall)]
    rfl
  · rw [if_neg hall, if_neg (mt hnil.mp hall), List.reverse_append, List.reverse_reverse, ofRunes,
      List.flatMap_append]
    exact congrArg (· ++ trimRight t) (ofRunes_runes w)

theorem hasSpace_prepend (hw : IsBlanks w) (hne : w ≠ []) (t : Text) :
    hasSpace (w ++ t) = true := by
  obtain ⟨b, u, rfl⟩ := List.exists_cons_of_ne_nil hne
  rw [hasSpace, runes_prepend hw, List.any_append, runes_cons, List.any_cons,
    isSpace_of_mem_runes hw (firstRune b u) (by rw [runes_cons]; exact List.mem_cons_self)]
  rfl

end LineReview.Text
