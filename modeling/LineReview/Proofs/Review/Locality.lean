import LineReview.Review.Outcome
import LineReview.Proofs.Source.LineIndex

/-!
# Reviews are local to lines

A review looks at each line on its own, so without a limit the diagnostics of
some lines are the findings about each of them, one after the other
(`lines_unlimited`). A bag that only takes what it has room for keeps the
first of them (`lines_limited`). Findings carry the number of their line and
otherwise do not depend on it, so numbering lines from further on moves the
diagnostics and changes nothing else (`allFindings_shift`).
-/

namespace LineReview

/-! ## Bags -/

namespace Bag

theorem addAll_append (b : Bag) (ds es : List Diagnostic) :
    b.addAll (ds ++ es) = (b.addAll ds).addAll es :=
  List.foldl_append

theorem items_addAll_unlimited {b : Bag} (hlimit : b.limit ≤ 0) (ds : List Diagnostic) :
    (b.addAll ds).items = b.items ++ ds := by
  induction ds generalizing b with
  | nil => exact (List.append_nil _).symm
  | cons d ds ih =>
      have hroom : b.hasRoom = true := by
        unfold hasRoom
        rw [decide_eq_true hlimit, Bool.true_or]
      have hadd : b.add d = { b with items := b.items ++ [d] } := if_pos hroom
      change ((b.add d).addAll ds).items = b.items ++ d :: ds
      rw [hadd, ih (by exact hlimit), List.append_assoc, List.singleton_append]

/-- A bag with a limit holds the first diagnostics of all that were offered. -/
theorem items_addAll_limited {b : Bag} (hlimit : 0 < b.limit)
    (hfits : b.items.length ≤ b.limit.toInt.toNat) (ds : List Diagnostic) :
    (b.addAll ds).items = (b.items ++ ds).take b.limit.toInt.toNat := by
  induction ds generalizing b with
  | nil => rw [List.append_nil, List.take_of_length_le hfits]; rfl
  | cons d ds ih =>
      change ((b.add d).addAll ds).items = _
      have hpositive : decide (b.limit ≤ 0) = false := decide_eq_false (Int64.not_le.mpr hlimit)
      by_cases hfull : b.items.length < b.limit.toInt.toNat
      · have hadd : b.add d = { b with items := b.items ++ [d] } := by
          refine if_pos ?_
          unfold hasRoom
          rw [decide_eq_true hfull, Bool.or_true]
        have hlength : (b.items ++ [d]).length ≤ b.limit.toInt.toNat := by
          rw [List.length_append]
          exact hfull
        have htake := ih (b := { b with items := b.items ++ [d] }) hlimit hlength
        rw [hadd, htake, List.append_assoc, List.singleton_append]
      · -- a full bag takes no more, and the cut leaves nothing more either
        have hadd : b.add d = b := by
          refine if_neg ?_
          unfold hasRoom
          rw [hpositive, decide_eq_false hfull]
          decide
        have hlength : b.limit.toInt.toNat = b.items.length := by omega
        rw [hadd, ih hlimit hfits, hlength, List.take_left, List.take_left]

end Bag

namespace Review

variable {widths : Text.Widths}

/-! ## Findings of all lines -/

/-- The findings about numbered lines, one line after the other. -/
def allFindings (widths : Text.Widths) (o : ReviewOptions) (ls : List (UInt32 × Text)) :
    List Diagnostic :=
  ls.flatMap fun l => findings widths o l.1 l.2 (Classifier.classify o.classifier l.2)

theorem allFindings_cons (o : ReviewOptions) (l : UInt32 × Text) (ls : List (UInt32 × Text)) :
    allFindings widths o (l :: ls) =
      findings widths o l.1 l.2 (Classifier.classify o.classifier l.2) ++ allFindings widths o ls :=
  List.flatMap_cons

theorem foldl_addAll (o : ReviewOptions) (b : Bag) (ls : List (UInt32 × Text)) :
    ls.foldl
        (fun b l => b.addAll (findings widths o l.1 l.2 (Classifier.classify o.classifier l.2))) b =
      b.addAll (allFindings widths o ls) := by
  induction ls generalizing b with
  | nil => rfl
  | cons l ls ih =>
      rw [List.foldl_cons, ih, allFindings_cons, Bag.addAll_append]

theorem lines_unlimited {o : ReviewOptions} (h : o.maxDiagnostics ≤ 0) (ls : List (UInt32 × Text)) :
    lines widths o ls = allFindings widths o ls := by
  rw [lines, foldl_addAll, Bag.items_addAll_unlimited (by exact h)]
  rfl

theorem lines_limited {o : ReviewOptions} (h : 0 < o.maxDiagnostics)
    (ls : List (UInt32 × Text)) :
    lines widths o ls = (allFindings widths o ls).take o.maxDiagnostics.toInt.toNat := by
  rw [lines, foldl_addAll, Bag.items_addAll_limited (by exact h) (Nat.zero_le _)]
  rfl

/-- A diagnostic some lines further on. -/
def shift (k : UInt32) (d : Diagnostic) : Diagnostic := { d with line := d.line + k }

theorem checkAll_shift (severity : Severity) (n k : UInt32) (sites : List Site) :
    Site.checkAll severity (n + k) sites = (Site.checkAll severity n sites).map (shift k) := by
  rw [Site.checkAll, Site.checkAll, List.map_filterMap]
  congr 1
  funext s
  unfold Site.check
  dsimp only
  split <;> rfl

theorem layoutCheck_shift (o : LayoutOptions) (line : Text) (n k : UInt32) :
    Layout.check widths o line (n + k) = (Layout.check widths o line n).map (shift k) := by
  have hlength : Layout.lengthFinding widths o.effective line (n + k) =
      (Layout.lengthFinding widths o.effective line n).map (shift k) := by
    unfold Layout.lengthFinding
    dsimp only
    split <;> rfl
  rw [Layout.check, Layout.check, Layout.findings, Layout.findings, List.map_append, hlength]
  cases Layout.indentation? line with
  | none => rfl
  | some lead =>
      have hwidth : Layout.widthFinding o.effective lead (n + k) =
          (Layout.widthFinding o.effective lead n).map (shift k) := by
        unfold Layout.widthFinding
        dsimp only
        split <;> rfl
      have hmixed : Layout.mixedFinding o.effective lead (n + k) =
          (Layout.mixedFinding o.effective lead n).map (shift k) := by
        unfold Layout.mixedFinding
        split <;> rfl
      dsimp only
      rw [hwidth, hmixed, List.map_append]

theorem findings_shift (o : ReviewOptions) (n k : UInt32) (line : Text) (sites : List Site) :
    findings widths o (n + k) line sites = (findings widths o n line sites).map (shift k) := by
  rw [findings, findings, List.map_append, checkAll_shift, layoutCheck_shift]

/-- Numbering lines from further on only moves their findings. -/
theorem allFindings_shift (o : ReviewOptions) (n k : UInt32) (ls : List Text) :
    allFindings widths o (SourceFile.number (n + k) ls) =
      (allFindings widths o (SourceFile.number n ls)).map (shift k) := by
  induction ls generalizing n with
  | nil => rfl
  | cons l ls ih =>
      have hnext : n + k + 1 = n + 1 + k := by
        rw [UInt32.add_assoc, UInt32.add_comm k, ← UInt32.add_assoc]
      rw [SourceFile.number, SourceFile.number, hnext]
      rw [allFindings_cons, allFindings_cons, findings_shift, ih, List.map_append]

theorem allFindings_append (o : ReviewOptions) (a b : List (UInt32 × Text)) :
    allFindings widths o (a ++ b) = allFindings widths o a ++ allFindings widths o b :=
  List.flatMap_append

end Review

/-! ## The findings about one line -/

/-- Codes of naming rules and of layout rules, by their thousands. -/
def Code.IsNaming (c : Code) : Prop := 1000 ≤ c.number.toNat ∧ c.number.toNat < 2000

def Code.IsLayout (c : Code) : Prop := 2000 ≤ c.number.toNat ∧ c.number.toNat < 3000

instance (c : Code) : Decidable c.IsNaming := inferInstanceAs (Decidable (_ ∧ _))

instance (c : Code) : Decidable c.IsLayout := inferInstanceAs (Decidable (_ ∧ _))

/-- The codes of the rules for names. -/
def Code.naming : List Code :=
  [staticConstMember, staticMember, constMember, member, const, globalBool, bool, general,
    className, namespaceName, enumName, enumValue]

theorem Rule.code_select_mem (c : Context) : (Rule.select c).code ∈ Code.naming := by
  have hall : ∀ r ∈ Rule.forVariables, r.code ∈ Code.naming := by
    simp only [Rule.forVariables, Rule.general, List.forall_mem_cons]
    decide
  unfold Rule.select
  cases hfind : Rule.forVariables.find? (·.applies c) with
  | none => exact (by decide : Rule.general.code ∈ Code.naming)
  | some r => exact hall r (List.mem_of_find?_eq_some hfind)

theorem Rule.code_forSite_mem (s : Site) : (Rule.forSite s).code ∈ Code.naming := by
  unfold Rule.forSite
  cases s.role with
  | variableName => exact Rule.code_select_mem s.context
  | unknown => exact Rule.code_select_mem {}
  | className => exact (by decide : Code.className ∈ Code.naming)
  | namespaceName => exact (by decide : Code.namespaceName ∈ Code.naming)
  | enumName => exact (by decide : Code.enumName ∈ Code.naming)
  | enumValue => exact (by decide : Code.enumValue ∈ Code.naming)

theorem Rule.isNaming_forSite (s : Site) : (Rule.forSite s).code.IsNaming := by
  have hall : ∀ c ∈ Code.naming, c.IsNaming := by decide
  exact hall _ (Rule.code_forSite_mem s)

/-- A violation at a site is one of the rule for it. -/
theorem Site.check_eq_some {severity : Severity} {n : UInt32} {s : Site} {d : Diagnostic}
    (h : s.check severity n = some d) :
    d = { severity, code := (Rule.forSite s).code, line := n, col := s.reportedColumn,
          message := bytes (Rule.forSite s).message ++ bytes " (got '" ++ s.name ++
            bytes "')" } := by
  unfold Site.check at h
  dsimp only at h
  split at h
  · cases h
  · exact (Option.some.inj h).symm

namespace Layout

theorem codes_lengthFinding (widths : Text.Widths) (o : LayoutOptions) (line : Text) (n : UInt32) :
    ((lengthFinding widths o line n).map (·.code)).Sublist [Code.lineLength] := by
  unfold lengthFinding
  dsimp only
  split
  · exact List.Sublist.refl _
  · exact List.nil_sublist _

theorem codes_widthFinding (o : LayoutOptions) (lead : Text) (n : UInt32) :
    ((widthFinding o lead n).map (·.code)).Sublist [Code.indentWidth] := by
  unfold widthFinding
  dsimp only
  split
  · exact List.Sublist.refl _
  · exact List.nil_sublist _

theorem codes_mixedFinding (o : LayoutOptions) (lead : Text) (n : UInt32) :
    ((mixedFinding o lead n).map (·.code)).Sublist [Code.mixedIndent] := by
  unfold mixedFinding
  split
  · exact List.Sublist.refl _
  · exact List.nil_sublist _

/-- At most one finding of each layout rule, length first. -/
theorem codes_check (widths : Text.Widths) (o : LayoutOptions) (line : Text) (n : UInt32) :
    ((check widths o line n).map (·.code)).Sublist
      [Code.lineLength, Code.indentWidth, Code.mixedIndent] := by
  rw [check, findings, List.map_append]
  refine (codes_lengthFinding widths _ line n).append ?_
  cases indentation? line with
  | none => exact List.nil_sublist _
  | some lead =>
      dsimp only
      rw [List.map_append]
      exact (codes_widthFinding _ lead n).append (codes_mixedFinding _ lead n)

end Layout

namespace Review

/-- Without a limit, a review is the reviews of the single lines one after the other, so lines that
follow others only have their numbers moved; a limit cuts the same list off; and each line has its
naming findings first, site by site, and then its layout findings. -/
theorem lines_local (widths : Text.Widths) (o : ReviewOptions) :
    (o.maxDiagnostics ≤ 0 → ∀ ls, lines widths o ls = ls.flatMap fun l => lines widths o [l]) ∧
    (o.maxDiagnostics ≤ 0 → ∀ a b : List Text,
      lines widths o (SourceFile.number 1 (a ++ b)) =
        lines widths o (SourceFile.number 1 a) ++
          (lines widths o (SourceFile.number 1 b)).map (shift (UInt32.ofNat a.length))) ∧
    (0 < o.maxDiagnostics → ∀ u ≤ 0, ∀ ls,
      lines widths o ls =
        (lines widths { o with maxDiagnostics := u } ls).take o.maxDiagnostics.toInt.toNat) ∧
    (o.maxDiagnostics ≤ 0 → ∀ n line, ∃ naming layout,
      lines widths o [(n, line)] = naming ++ layout ∧
      naming = (Classifier.classify o.classifier line).filterMap (Site.check o.namingSeverity n) ∧
      (∀ d ∈ naming, d.code.IsNaming) ∧
      (layout.map (·.code)).Sublist [Code.lineLength, Code.indentWidth, Code.mixedIndent]) := by
  refine ⟨?_, ?_, ?_, ?_⟩
  · intro hmax ls
    have hone : ∀ l, lines widths o [l] =
        findings widths o l.1 l.2 (Classifier.classify o.classifier l.2) := by
      intro l
      rw [lines_unlimited hmax, allFindings_cons]
      exact List.append_nil _
    simp only [hone]
    exact lines_unlimited hmax ls
  · intro hmax a b
    rw [lines_unlimited hmax, lines_unlimited hmax, lines_unlimited hmax,
      SourceFile.number_append, allFindings_append, allFindings_shift]
  · intro hmax u hu ls
    rw [lines_limited hmax, lines_unlimited (by exact hu)]
    rfl
  · intro hmax n line
    refine ⟨_, Layout.check widths o.layout line n, ?_, rfl, ?_, Layout.codes_check _ _ _ _⟩
    · rw [lines_unlimited hmax, allFindings_cons]
      exact List.append_nil _
    · intro d hd
      obtain ⟨s, _, hs⟩ := List.mem_filterMap.mp hd
      rw [Site.check_eq_some hs]
      exact Rule.isNaming_forSite s

/-- Two lines with a violation each, reviewed together, apart, and up to the first diagnostic. -/
theorem lines_local_two :
    let a := [bytes "int x;"]
    let b := [bytes "int y;"]
    (lines .western {} (SourceFile.number 1 (a ++ b))).length = 2 ∧
    lines .western {} (SourceFile.number 1 (a ++ b)) =
      lines .western {} (SourceFile.number 1 a) ++
        (lines .western {} (SourceFile.number 1 b)).map (shift 1) ∧
    lines .western { maxDiagnostics := 1 } (SourceFile.number 1 (a ++ b)) =
      (lines .western {} (SourceFile.number 1 (a ++ b))).take 1 :=
  ⟨by decide +kernel, (lines_local .western {}).2.1 (by decide) _ _,
    (lines_local .western { maxDiagnostics := 1 }).2.2.1 (by decide) 0 (by decide) _⟩

end Review

end LineReview
