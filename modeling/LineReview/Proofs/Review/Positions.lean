import LineReview.Proofs.Classifier.Sites
import LineReview.Proofs.Review.Locality

/-!
# Where diagnostics stand

A diagnostic carries the number of a line of its file. That of a naming rule
carries the column of a word on that line and quotes the word
(`naming_position`); that of a layout rule is about the line as a whole or about
its indentation (`layout_position`). For a file whose offsets are 32-bit numbers
the line is the one that the index of the file finds, so `source_positions` puts
the two together for whole files.
-/

namespace LineReview

namespace Review

variable {widths : Text.Widths}

/-! ## Findings and their lines -/

/-- A limit only leaves diagnostics out. -/
theorem lines_sublist (o : ReviewOptions) (ls : List (UInt32 × Text)) :
    (lines widths o ls).Sublist (allFindings widths o ls) := by
  by_cases hmax : o.maxDiagnostics ≤ 0
  · rw [lines_unlimited hmax]
  · rw [lines_limited (Int64.not_le.mp hmax)]
    exact List.take_sublist _ _

theorem mem_allFindings {o : ReviewOptions} {ls : List (UInt32 × Text)} {d : Diagnostic}
    (h : d ∈ allFindings widths o ls) :
    ∃ n line, (n, line) ∈ ls ∧
      (d ∈ Site.checkAll o.namingSeverity n (Classifier.classify o.classifier line) ∨
        d ∈ Layout.check widths o.layout line n) := by
  obtain ⟨⟨n, line⟩, hmem, hd⟩ := List.mem_flatMap.mp h
  exact ⟨n, line, hmem, List.mem_append.mp hd⟩

/-! ## Naming -/

/-- The message of a naming rule, with the word at fault. -/
def Quotes (d : Diagnostic) (word : Text) : Prop :=
  ∃ before, d.message = before ++ (bytes "(got '" ++ (word ++ bytes "')"))

/-- A word stands on a line at a one-based column. -/
structure WordAt (line : Text) (col : Nat) (word : Text) : Prop where
  col_pos : 1 ≤ col
  ne_nil : word ≠ []
  isWord : ∀ b ∈ word, Classifier.isWordByte b = true
  slice : word = (line.drop (col - 1)).take word.length
  le : col - 1 + word.length ≤ line.length

theorem reportedColumn_of_standsOn {s : Site} {line : Text} (h : Classifier.StandsOn s line)
    (hshort : line.length < 2 ^ 32 - 1) : WordAt line s.reportedColumn.toNat s.name := by
  obtain ⟨r, hword, hname, hcol⟩ := h
  obtain ⟨before, after, hline, hstart, hne, hbytes⟩ := hword.of_eq
  rw [← hname] at hline hne hbytes
  have hlength := congrArg List.length hline
  rw [List.length_append, List.length_append] at hlength
  have hcolumn : s.reportedColumn.toNat = before.length + 1 := by
    have hsum : s.col + 1 = ((before.length + 1 : Nat) : Int) := by
      rw [hcol, hstart]
      rfl
    unfold Site.reportedColumn
    dsimp only
    rw [hsum, if_pos, Int.toNat_natCast]
    · exact UInt32.toNat_ofNat_of_lt' (by change before.length + 1 < 2 ^ 32; omega)
    · rw [Bool.and_eq_true, decide_eq_true_eq, decide_eq_true_eq]
      omega
  rw [hcolumn]
  refine ⟨by omega, hne, hbytes, ?_, by omega⟩
  rw [Nat.add_sub_cancel, hline, List.drop_left, List.take_left]

/-- A naming rule reports a word of its line, at the column where the word stands. -/
theorem naming_position {o : ClassifierOptions} {severity : Severity} {n : UInt32} {line : Text}
    {d : Diagnostic} (hshort : line.length < 2 ^ 32 - 1)
    (h : d ∈ Site.checkAll severity n (Classifier.classify o line)) :
    d.line = n ∧ d.code.IsNaming ∧ ∃ word, Quotes d word ∧ WordAt line d.col.toNat word := by
  obtain ⟨s, hs, hcheck⟩ := List.mem_filterMap.mp h
  have hd := Site.check_eq_some hcheck
  have hquote : bytes " (got '" = bytes " " ++ bytes "(got '" := by decide
  rw [hd]
  refine ⟨rfl, Rule.isNaming_forSite s, s.name, ?_, ?_⟩
  · refine ⟨bytes (Rule.forSite s).message ++ bytes " ", ?_⟩
    dsimp only
    rw [hquote]
    simp only [List.append_assoc]
  · exact reportedColumn_of_standsOn (Classifier.standsOn_classify hs) hshort

/-! ## Layout -/

theorem ne_nil_of_indentation? {line lead : Text} (h : Layout.indentation? line = some lead) :
    line ≠ [] := by
  rintro rfl
  unfold Layout.indentation? at h
  cases h

/-- The length of a line concerns all of it and has no column; its indentation is reported at the
first column, and then the line is not empty. -/
def LayoutAt (line : Text) (d : Diagnostic) : Prop :=
  d.code = .lineLength ∧ d.col = 0 ∨
    (d.code = .indentWidth ∨ d.code = .mixedIndent) ∧ d.col = 1 ∧ line ≠ []

theorem layout_position {o : LayoutOptions} {line : Text} {n : UInt32} {d : Diagnostic}
    (h : d ∈ Layout.check widths o line n) : d.line = n ∧ LayoutAt line d := by
  rw [Layout.check, Layout.findings, List.mem_append] at h
  rcases h with h | h
  · unfold Layout.lengthFinding at h
    dsimp only at h
    split at h
    · rw [List.mem_singleton.mp h]
      exact ⟨rfl, .inl ⟨rfl, rfl⟩⟩
    · cases h
  · split at h
    · cases h
    · rename_i lead hlead
      have hne := ne_nil_of_indentation? hlead
      rcases List.mem_append.mp h with h | h
      · unfold Layout.widthFinding at h
        dsimp only at h
        split at h
        · rw [List.mem_singleton.mp h]
          exact ⟨rfl, .inr ⟨.inl rfl, rfl, hne⟩⟩
        · cases h
      · unfold Layout.mixedFinding at h
        split at h
        · rw [List.mem_singleton.mp h]
          exact ⟨rfl, .inr ⟨.inr rfl, rfl, hne⟩⟩
        · cases h

theorem LayoutAt.isLayout {line : Text} {d : Diagnostic} (h : LayoutAt line d) :
    d.code.IsLayout := by
  rcases h with ⟨h, _⟩ | ⟨h | h, _⟩ <;> rw [h] <;> decide

/-! ## Whole files -/

theorem line_of_mem_findings {o : ReviewOptions} {n : UInt32} {line : Text} {sites : List Site}
    {d : Diagnostic} (h : d ∈ findings widths o n line sites) : d.line = n := by
  rcases List.mem_append.mp h with h | h
  · obtain ⟨s, _, hcheck⟩ := List.mem_filterMap.mp h
    rw [Site.check_eq_some hcheck]
  · exact (layout_position h).1

/-- Findings come in the order of their lines. -/
theorem pairwise_allFindings {o : ReviewOptions} {ls : List (UInt32 × Text)}
    (h : ls.Pairwise fun a b => a.1.toNat ≤ b.1.toNat) :
    (allFindings widths o ls).Pairwise fun d e => d.line.toNat ≤ e.line.toNat := by
  rw [allFindings, List.pairwise_flatMap]
  constructor
  · intro l _
    apply List.pairwise_of_forall_mem_list
    intro d hd e he
    rw [line_of_mem_findings hd, line_of_mem_findings he]
  · refine h.imp ?_
    intro a b hab d hd e he
    rw [line_of_mem_findings hd, line_of_mem_findings he]
    exact hab

/-- Every diagnostic of a file points at a line of it, and the diagnostics are in the order of their
lines. Those of naming rules quote the word that stands at their column; those of layout rules have
no column, or the first one of a line that is not empty. -/
theorem source_positions (widths : Text.Widths) (o : ReviewOptions) (name : Text) {content : Text}
    (h : content.length < 2 ^ 32 - 1) :
    let f := SourceFile.ofBytes name content
    (∀ d ∈ source widths o f, 1 ≤ d.line.toNat ∧ d.line.toNat ≤ f.lineCount) ∧
    (source widths o f).Pairwise (fun d e => d.line.toNat ≤ e.line.toNat) ∧
    (∀ d ∈ source widths o f, d.code.IsNaming ∨ d.code.IsLayout) ∧
    (∀ d ∈ source widths o f, d.code.IsNaming →
      ∃ word, Quotes d word ∧ WordAt (f.line d.line.toNat) d.col.toNat word) ∧
    (∀ d ∈ source widths o f, d.code.IsLayout → LayoutAt (f.line d.line.toNat) d) := by
  intro f
  have hindexed : f.Indexed := SourceFile.indexed_ofBytes name h
  have hsublist : (source widths o f).Sublist (allFindings widths o f.lines) :=
    lines_sublist o f.lines
  -- each diagnostic with its line, of which one of the two kinds of rules speaks
  have hplace : ∀ d ∈ source widths o f, 1 ≤ d.line.toNat ∧ d.line.toNat ≤ f.lineCount ∧
      ((d.code.IsNaming ∧ ∃ word, Quotes d word ∧ WordAt (f.line d.line.toNat) d.col.toNat word) ∨
        LayoutAt (f.line d.line.toNat) d) := by
    intro d hd
    obtain ⟨n, line, hmem, hfinding⟩ := mem_allFindings (hsublist.subset hd)
    obtain ⟨hfirst, hlast, hline, hshort⟩ := hindexed.of_mem_lines hmem
    rcases hfinding with hfinding | hfinding
    · obtain ⟨rfl, hcode, hword⟩ := naming_position hshort hfinding
      exact ⟨hfirst, hlast, .inl ⟨hcode, hline ▸ hword⟩⟩
    · obtain ⟨rfl, hlayout⟩ := layout_position hfinding
      exact ⟨hfirst, hlast, .inr (hline ▸ hlayout)⟩
  have hdisjoint : ∀ c : Code, c.IsNaming → ¬ c.IsLayout := by
    rintro c ⟨_, hnaming⟩ ⟨hlayout, _⟩
    omega
  refine ⟨?_, ?_, ?_, ?_, ?_⟩
  · intro d hd
    exact ⟨(hplace d hd).1, (hplace d hd).2.1⟩
  · exact (pairwise_allFindings hindexed.pairwise_lines).sublist hsublist
  · intro d hd
    rcases (hplace d hd).2.2 with ⟨hcode, _⟩ | hlayout
    · exact .inl hcode
    · exact .inr hlayout.isLayout
  · intro d hd hnaming
    rcases (hplace d hd).2.2 with ⟨_, hword⟩ | hlayout
    · exact hword
    · exact absurd hlayout.isLayout (hdisjoint _ hnaming)
  · intro d hd hlayout
    rcases (hplace d hd).2.2 with ⟨hcode, _⟩ | hplaced
    · exact absurd hlayout (hdisjoint _ hcode)
    · exact hplaced

/-- A mark and carriage returns are removed before lines and columns are counted. -/
theorem source_positions_marked :
    let content := [0xEF, 0xBB, 0xBF] ++ bytes "int x;\r\n\r\n  bool y = 1;\r\n"
    let f := SourceFile.ofBytes (bytes "a.cpp") content
    (source .western {} f).map (fun d => (d.line, d.col)) = [(1, 5), (3, 8)] ∧
    ∀ d ∈ source .western {} f, d.code.IsNaming →
      ∃ word, Quotes d word ∧ WordAt (f.line d.line.toNat) d.col.toNat word :=
  ⟨by decide +kernel, (source_positions .western {} (bytes "a.cpp") (by decide)).2.2.2.1⟩

end Review

end LineReview
