import LineReview.Proofs.Text.Blanks

/-!
# Properly spelled code points

A code point that is no stray byte is an ASCII byte or a leading byte with continuation bytes
behind it (`isSpelled_of_mem_runes`). So a text in UTF-8 without continuation bytes is plain ASCII
(`countP_isContinuation_eq_zero`). What stands before a boundary of a text in UTF-8 is UTF-8 too
(`isUtf8_take`).
-/

namespace LineReview

namespace Rune

/-- The two forms of a properly spelled code point. -/
inductive IsSpelled : Rune → Prop where
  /-- An ASCII byte, which stands for itself. -/
  | ascii {b : UInt8} : b < 0x80 → IsSpelled ⟨b.toNat, [b]⟩
  /-- A leading byte and the continuations behind it. -/
  | wide {code : Nat} {a : UInt8} {cs : Text} : 0x80 ≤ code → 0xC0 ≤ a.toNat → cs ≠ [] →
      (∀ c ∈ cs, Text.isContinuation c = true) → IsSpelled ⟨code, a :: cs⟩

end Rune

namespace Text

open Rune (IsSpelled)

theorem isContinuation_iff {b : UInt8} :
    isContinuation b = true ↔ 128 ≤ b.toNat ∧ b.toNat ≤ 191 := by
  simp [isContinuation, UInt8.le_iff_toNat_le]

theorem not_isContinuation_of_lt {b : UInt8} (h : b < 0x80) : ¬ isContinuation b = true := by
  have hlt : b.toNat < 128 := h
  rw [isContinuation_iff]
  omega

theorem isSpelled_pair {a b : UInt8} (h : isPair a b = true) :
    IsSpelled ⟨a.toNat % 32 * 64 + low6 b, [a, b]⟩ := by
  simp only [isPair, Bool.and_eq_true, decide_eq_true_eq, UInt8.le_iff_toNat_le,
    UInt8.reduceToNat] at h
  obtain ⟨ha, hb⟩ := h
  refine .wide ?_ (by omega) (List.cons_ne_nil _ _) (by simpa using hb)
  omega

theorem isSpelled_triple {a b c : UInt8} (h : isTriple a b c = true) :
    IsSpelled ⟨(a.toNat % 16 * 64 + low6 b) * 64 + low6 c, [a, b, c]⟩ := by
  simp only [isTriple, Bool.and_eq_true, Bool.or_eq_true, bne_iff_ne, ne_eq,
    decide_eq_true_eq, UInt8.le_iff_toNat_le, ← UInt8.toNat_inj, UInt8.reduceToNat] at h
  obtain ⟨⟨⟨⟨ha, hb⟩, hc⟩, hshort⟩, -⟩ := h
  refine .wide ?_ (by omega) (List.cons_ne_nil _ _) (by simp [hb, hc])
  -- the shortest spelling begins with `0xE0`, and then its second byte is large
  have hlow := isContinuation_iff.mp hb
  unfold low6
  omega

theorem isSpelled_quad {a b c d : UInt8} (h : isQuad a b c d = true) :
    IsSpelled ⟨((a.toNat % 8 * 64 + low6 b) * 64 + low6 c) * 64 + low6 d, [a, b, c, d]⟩ := by
  simp only [isQuad, Bool.and_eq_true, Bool.or_eq_true, bne_iff_ne, ne_eq,
    decide_eq_true_eq, UInt8.le_iff_toNat_le, ← UInt8.toNat_inj, UInt8.reduceToNat] at h
  obtain ⟨⟨⟨⟨⟨ha, hb⟩, hc⟩, hd⟩, hshort⟩, -⟩ := h
  refine .wide ?_ (by omega) (List.cons_ne_nil _ _) (by simp [hb, hc, hd])
  have hlow := isContinuation_iff.mp hb
  unfold low6
  omega

theorem isSpelled_firstRune {a : UInt8} {t : Text} (h : (firstRune a t).isStray = false) :
    IsSpelled (firstRune a t) := by
  have hstray : (Rune.stray a).isStray ≠ false := by simp [Rune.isStray, Rune.stray]
  unfold firstRune at h ⊢
  by_cases ha : a < 0x80
  · rw [if_pos ha]
    exact .ascii ha
  rw [if_neg ha] at h ⊢
  rcases t with _ | ⟨b, _ | ⟨c, _ | ⟨d, t⟩⟩⟩ <;> dsimp only at h ⊢
  · exact absurd h hstray
  · split_ifs at h ⊢ with hpair
    · exact isSpelled_pair hpair
    · exact absurd h hstray
  · split_ifs at h ⊢ with hpair htriple
    · exact isSpelled_pair hpair
    · exact isSpelled_triple htriple
    · exact absurd h hstray
  · split_ifs at h ⊢ with hpair htriple hquad
    · exact isSpelled_pair hpair
    · exact isSpelled_triple htriple
    · exact isSpelled_quad hquad
    · exact absurd h hstray

theorem isSpelled_of_mem_runes {t : Text} (h : isUtf8 t = true) {r : Rune} (hr : r ∈ runes t) :
    IsSpelled r := by
  induction t using runes_induction with
  | hnil => cases hr
  | hcons a t ih =>
      rw [isUtf8, runes_cons, List.all_cons, Bool.and_eq_true] at h
      rw [runes_cons] at hr
      rcases List.mem_cons.mp hr with rfl | hr
      · exact isSpelled_firstRune (by simpa using h.1)
      · exact ih h.2 hr

theorem mem_iff_exists_rune {b : UInt8} {t : Text} : b ∈ t ↔ ∃ r ∈ runes t, b ∈ r.raw := by
  rw [← List.mem_flatMap, ← ofRunes, ofRunes_runes]

/-- No continuation bytes, no bytes beyond ASCII. -/
theorem countP_isContinuation_eq_zero {t : Text} (h : isUtf8 t = true) :
    t.countP isContinuation = 0 ↔ ∀ b ∈ t, b < 0x80 := by
  rw [List.countP_eq_zero]
  constructor
  · intro hnone b hb
    obtain ⟨r, hr, hb⟩ := mem_iff_exists_rune.mp hb
    cases isSpelled_of_mem_runes h hr with
    | ascii ha => exact List.mem_singleton.mp hb ▸ ha
    | @wide code a cs _ _ hne hcs =>
        obtain ⟨c, hc⟩ := List.exists_mem_of_ne_nil cs hne
        have hmem := mem_iff_exists_rune.mpr ⟨_, hr, List.mem_cons_of_mem a hc⟩
        exact absurd (hcs c hc) (hnone c hmem)
  · intro hascii b hb
    exact not_isContinuation_of_lt (hascii b hb)

/-- Cutting a text there cuts no code point. -/
def IsBoundary (t : Text) (i : Nat) : Prop := runes t = runes (t.take i) ++ runes (t.drop i)

instance (t : Text) (i : Nat) : Decidable (IsBoundary t i) := inferInstanceAs (Decidable (_ = _))

theorem isUtf8_take {t : Text} {i : Nat} (h : isUtf8 t = true) (hi : IsBoundary t i) :
    isUtf8 (t.take i) = true := by
  rw [isUtf8, hi, List.all_append, Bool.and_eq_true] at h
  exact h.1

end Text

end LineReview
