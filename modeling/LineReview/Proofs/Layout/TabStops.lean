import LineReview.Proofs.Review.TrailingBlanks
import Mathlib.Algebra.Group.Int.Defs
import Mathlib.Data.List.Induction

/-!
# Tab stops

Leading white space is written out from left to right: a tab becomes the spaces up to the
next multiple of the tab width, and any other code point one space (`untabbed`). As long
as the columns stay below 2⁶³, the column that the layout rules count is the length of
what is written out (`toInt_expandedWidth`).

A tab always ends at a multiple of the tab width. So where the indent width divides the
tab width, only what stands behind the last tab decides whether indentation is a
multiple of the indent width (`length_untabbed_mod`).
-/

namespace LineReview

theorem Text.length_codes_le (t : Text) : (codes t).length ≤ t.length := by
  rw [codes, List.length_map]
  induction t using runes_induction with
  | hnil => exact Nat.le_refl _
  | hcons a t ih =>
      rw [runes_cons, List.length_cons, List.length_cons]
      rw [List.length_drop] at ih
      omega

theorem Text.trimLeft_ne_nil_iff (t : Text) :
    trimLeft t ≠ [] ↔ ∃ r ∈ runes t, isSpace r.code = false := by
  rw [Ne, trimLeft_eq_nil_iff, List.dropWhile_eq_nil_iff]
  simp

namespace Layout

/-! ## Writing tabs out -/

/-- Code points written out from left to right: a tab as the spaces up to the next multiple of the
tab width, anything else as one space. -/
def untabbed (tabWidth : Nat) (codes : List Nat) : Text :=
  codes.foldl (fun out c =>
    out ++ List.replicate (if c = 9 then tabWidth - out.length % tabWidth else 1) 32) []

/-- How many code points stand behind the last tab; all of them when there is none. -/
def behindLastTab (codes : List Nat) : Nat := (codes.reverse.takeWhile (· ≠ 9)).length

section

variable {w : Nat} {cs : List Nat}

theorem length_untabbed_tab (w : Nat) (cs : List Nat) :
    (untabbed w (cs ++ [9])).length =
      (untabbed w cs).length + (w - (untabbed w cs).length % w) := by
  simp [untabbed]

theorem length_untabbed_other {c : Nat} (hc : c ≠ 9) (w : Nat) (cs : List Nat) :
    (untabbed w (cs ++ [c])).length = (untabbed w cs).length + 1 := by
  simp [untabbed, hc]

theorem behindLastTab_tab (cs : List Nat) : behindLastTab (cs ++ [9]) = 0 := by
  simp [behindLastTab]

theorem behindLastTab_other {c : Nat} (hc : c ≠ 9) (cs : List Nat) :
    behindLastTab (cs ++ [c]) = behindLastTab cs + 1 := by
  simp [behindLastTab, hc]

/-- No code point takes more columns than a tab can. -/
theorem length_untabbed_le (hw : 0 < w) (cs : List Nat) :
    (untabbed w cs).length ≤ cs.length * w := by
  induction cs using List.reverseRecOn with
  | nil => exact Nat.zero_le _
  | append_singleton cs c ih =>
      rw [List.length_append, List.length_singleton, Nat.succ_mul]
      by_cases hc : c = 9
      · rw [hc, length_untabbed_tab]
        omega
      · rw [length_untabbed_other hc]
        omega

theorem dvd_tabStop (hw : 0 < w) (col : Nat) : w ∣ col + (w - col % w) := by
  have hlt := Nat.mod_lt col hw
  refine ⟨col / w + 1, ?_⟩
  have hcol := Nat.div_add_mod col w
  rw [Nat.mul_succ]
  omega

/-- Where the indent width divides the tab width, only what stands behind the last tab matters. -/
theorem length_untabbed_mod {k : Nat} (hw : 0 < w) (hk : k ∣ w) (cs : List Nat) :
    (untabbed w cs).length % k = behindLastTab cs % k := by
  induction cs using List.reverseRecOn with
  | nil => rfl
  | append_singleton cs c ih =>
      by_cases hc : c = 9
      · rw [hc, length_untabbed_tab, behindLastTab_tab, Nat.zero_mod]
        exact Nat.mod_eq_zero_of_dvd (Nat.dvd_trans hk (dvd_tabStop hw _))
      · rw [length_untabbed_other hc, behindLastTab_other hc, Nat.add_mod, ih, ← Nat.add_mod]

theorem dvd_length_untabbed_iff {i : Int} (hw : 0 < w) (hi : i ∣ w) (cs : List Nat) :
    i ∣ (untabbed w cs).length ↔ i ∣ behindLastTab cs := by
  rw [Int.ofNat_dvd_right] at hi
  rw [Int.ofNat_dvd_right, Int.ofNat_dvd_right, Nat.dvd_iff_mod_eq_zero, Nat.dvd_iff_mod_eq_zero,
    length_untabbed_mod hw hi]

end

/-! ## Columns in 64 bits -/

/-- One more code point, as long as the column has room for one more tab. -/
theorem toInt_advance {tabWidth col : Int64} {w k : Nat} (htab : tabWidth.toInt = w) (hw : 0 < w)
    (hcol : col.toInt = k) (hroom : k + w < 2 ^ 63) (c : Nat) :
    (advance tabWidth col c).toInt = (k + if c = 9 then w - k % w else 1 : Nat) := by
  have hmod : (col % tabWidth).toInt = (k % w : Nat) := by
    rw [Int64.toInt_mod, hcol, htab]
    exact Int.ofNat_tmod k w
  have hlt := Nat.mod_lt k hw
  unfold advance
  by_cases hc : c = 9
  · rw [if_pos hc, if_pos hc]
    have hstep : (tabWidth - col % tabWidth).toInt = (w - k % w : Nat) := by
      rw [Int64.toInt_sub, hmod, htab, Int.bmod_eq_of_le (by omega) (by omega)]
      omega
    rw [Int64.toInt_add, hcol, hstep, Int.bmod_eq_of_le (by omega) (by omega)]
    omega
  · rw [if_neg hc, if_neg hc, Int64.toInt_add, hcol, Int64.toInt_one,
      Int.bmod_eq_of_le (by omega) (by omega)]
    omega

theorem toInt_foldl_advance {tabWidth : Int64} {w : Nat} (htab : tabWidth.toInt = w) (hw : 0 < w)
    {cs : List Nat} (hfits : cs.length * w < 2 ^ 63) :
    (cs.foldl (advance tabWidth) 0).toInt = (untabbed w cs).length := by
  induction cs using List.reverseRecOn with
  | nil => rfl
  | append_singleton cs c ih =>
      rw [List.length_append, List.length_singleton, Nat.succ_mul] at hfits
      have hcol := ih (by omega)
      have hroom : (untabbed w cs).length + w < 2 ^ 63 := by
        have hle := length_untabbed_le hw cs
        omega
      rw [List.foldl_append, List.foldl_cons, List.foldl_nil,
        toInt_advance htab hw hcol hroom c]
      by_cases hc : c = 9
      · rw [if_pos hc, hc, length_untabbed_tab]
      · rw [if_neg hc, length_untabbed_other hc]

/-- The column that leading white space reaches is its length with all tabs written out. -/
theorem toInt_expandedWidth {tabWidth : Int64} (hpos : 0 < tabWidth.toInt) {lead : Text}
    (hfits : lead.length * tabWidth.toInt < 2 ^ 63) :
    (expandedWidth tabWidth lead).toInt =
      (untabbed tabWidth.toInt.toNat (Text.codes lead)).length := by
  obtain ⟨w, hw⟩ := Int.eq_ofNat_of_zero_le (Int.le_of_lt hpos)
  rw [hw] at hpos hfits ⊢
  have hcodes : (Text.codes lead).length * w ≤ lead.length * w :=
    Nat.mul_le_mul_right w (Text.length_codes_le lead)
  exact toInt_foldl_advance hw (by omega) (by omega)

/-! ## What is reported -/

theorem effective_tabWidth_pos (o : LayoutOptions) : 0 < o.effective.tabWidth.toInt := by
  unfold LayoutOptions.effective
  dsimp only
  split
  · decide
  · rename_i hpos
    exact Int64.lt_iff_toInt_lt.mp (Int64.not_le.mp hpos)

theorem mod_ne_zero_iff {width indentWidth : Int64} :
    (width % indentWidth != 0) = true ↔ ¬ indentWidth.toInt ∣ width.toInt := by
  rw [bne_iff_ne, Ne, ← Int64.toInt_inj, Int64.toInt_mod, Int64.toInt_zero,
    ← Int.dvd_iff_tmod_eq_zero]

theorem mem_widthFinding {o : LayoutOptions} {lead : Text} {n : UInt32} {d : Diagnostic} :
    d ∈ widthFinding o lead n ↔
      (o.indent = true ∧ ¬ o.indentWidth.toInt ∣ (expandedWidth o.tabWidth lead).toInt) ∧
      d = ⟨o.severity, .indentWidth, n, 1, bytes "indentation must be a multiple of "
        ++ Text.decimalInt o.indentWidth.toInt ++ bytes " spaces (got "
        ++ Text.decimalInt (expandedWidth o.tabWidth lead).toInt ++ bytes ")"⟩ := by
  unfold widthFinding
  dsimp only
  rw [← mod_ne_zero_iff, ← Bool.and_eq_true]
  split
  · rename_i hreport
    simp [hreport]
  · rename_i hreport
    simp [hreport]

theorem code_of_mem_lengthFinding {widths : Text.Widths} {o : LayoutOptions} {line : Text}
    {n : UInt32} {d : Diagnostic} (h : d ∈ lengthFinding widths o line n) : d.code = .lineLength :=
  List.mem_singleton.mp ((codes_lengthFinding widths o line n).subset (List.mem_map_of_mem h))

theorem code_of_mem_mixedFinding {o : LayoutOptions} {lead : Text} {n : UInt32} {d : Diagnostic}
    (h : d ∈ mixedFinding o lead n) : d.code = .mixedIndent :=
  List.mem_singleton.mp ((codes_mixedFinding o lead n).subset (List.mem_map_of_mem h))

/-- Of the findings about a line, those about the width of its indentation. -/
theorem mem_check_indentWidth {widths : Text.Widths} {o : LayoutOptions} {line : Text} {n : UInt32}
    {d : Diagnostic} :
    d ∈ check widths o line n ∧ d.code = .indentWidth ↔
      (Text.leading line ≠ [] ∧ Text.trimLeft line ≠ []) ∧
      d ∈ widthFinding o.effective (Text.leading line) n := by
  rw [check, findings, indentation?_eq]
  by_cases hnone : Text.leading line = [] ∨ Text.trimLeft line = []
  · rw [if_pos hnone, List.append_nil]
    constructor
    · rintro ⟨hd, hcode⟩
      rw [code_of_mem_lengthFinding hd] at hcode
      cases hcode
    · rintro ⟨⟨hlead, hrest⟩, _⟩
      exact absurd hnone (not_or.mpr ⟨hlead, hrest⟩)
  · rw [if_neg hnone]
    dsimp only
    rw [List.mem_append, List.mem_append]
    constructor
    · rintro ⟨hd | hd | hd, hcode⟩
      · rw [code_of_mem_lengthFinding hd] at hcode
        cases hcode
      · exact ⟨not_or.mp hnone, hd⟩
      · rw [code_of_mem_mixedFinding hd] at hcode
        cases hcode
    · rintro ⟨_, hd⟩
      refine ⟨.inr (.inl hd), ?_⟩
      rw [(mem_widthFinding.mp hd).2]

/-- As long as no column leaves the 64 bits, the width that a finding about indentation tells is
that of the leading white space with its tabs written out. Where the indent width divides the tab
width, the finding is there exactly if something follows the leading white space and the code points
behind the last tab are no multiple of the indent width. -/
theorem indentation_reported (widths : Text.Widths) (o : LayoutOptions) (line : Text) (n : UInt32)
    (hfits : (Text.leading line).length * o.effective.tabWidth.toInt < 2 ^ 63) :
    (o.indent = true → o.effective.indentWidth.toInt ∣ o.effective.tabWidth.toInt →
      ((∃ d ∈ check widths o line n, d.code = .indentWidth) ↔
        (∃ r ∈ Text.runes line, Text.isSpace r.code = false) ∧ Text.leading line ≠ [] ∧
        ¬ o.effective.indentWidth.toInt ∣ behindLastTab (Text.codes (Text.leading line)))) ∧
    ∀ d ∈ check widths o line n, d.code = .indentWidth →
      d.message = bytes "indentation must be a multiple of "
        ++ Text.decimalInt o.effective.indentWidth.toInt ++ bytes " spaces (got "
        ++ Text.decimal (untabbed o.effective.tabWidth.toInt.toNat
            (Text.codes (Text.leading line))).length
        ++ bytes ")" := by
  have hpos := effective_tabWidth_pos o
  have hwidth := toInt_expandedWidth hpos hfits
  constructor
  · intro hindent hdvd
    have hjudged : o.effective.indentWidth.toInt ∣
          (expandedWidth o.effective.tabWidth (Text.leading line)).toInt ↔
        o.effective.indentWidth.toInt ∣ behindLastTab (Text.codes (Text.leading line)) := by
      rw [hwidth]
      refine dvd_length_untabbed_iff (by omega) ?_ _
      rwa [Int.toNat_of_nonneg (Int.le_of_lt hpos)]
    rw [← Text.trimLeft_ne_nil_iff, ← hjudged]
    constructor
    · rintro ⟨d, hd, hcode⟩
      obtain ⟨⟨hlead, hrest⟩, hfinding⟩ := mem_check_indentWidth.mp ⟨hd, hcode⟩
      exact ⟨hrest, hlead, (mem_widthFinding.mp hfinding).1.2⟩
    · rintro ⟨hrest, hlead, hodd⟩
      exact ⟨_, mem_check_indentWidth.mpr
        ⟨⟨hlead, hrest⟩, mem_widthFinding.mpr ⟨⟨hindent, hodd⟩, rfl⟩⟩⟩
  · intro d hd hcode
    obtain ⟨_, hfinding⟩ := mem_check_indentWidth.mp ⟨hd, hcode⟩
    rw [(mem_widthFinding.mp hfinding).2, hwidth]
    rfl

/-- A tab after a space, and a no-break space behind the tab: the tab ends at column 8, so the width
is 9. -/
theorem indentation_reported_tab :
    let o : LayoutOptions := { indent := true, indentWidth := 4, tabWidth := 8 }
    let line := bytes " \t\u00a0x;"
    (∃ d ∈ check .western o line 1, d.code = .indentWidth) ∧
    ∀ d ∈ check .western o line 1, d.code = .indentWidth →
      d.message = bytes "indentation must be a multiple of 4 spaces (got 9)" := by
  intro o line
  have hlead : Text.leading line = bytes " \t\u00a0" := by decide
  obtain ⟨hiff, hmessage⟩ := indentation_reported .western o line 1 (by rw [hlead]; decide)
  rw [hlead] at hiff hmessage
  refine ⟨(hiff rfl (by decide)).mpr ⟨by decide, by decide, by decide⟩, ?_⟩
  intro d hd hcode
  rw [hmessage d hd hcode]
  decide

end Layout

end LineReview
