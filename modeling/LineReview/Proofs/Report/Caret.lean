import LineReview.Proofs.Text.Spelled
import LineReview.Report.Human
import Mathlib.Algebra.BigOperators.Group.List.Basic
import Mathlib.Data.List.Infix

/-!
# The place of the caret

Columns count bytes, and so does the indentation in front of a caret. A reader counts the
characters of the quoted line. The two agree as long as every code point before the column is a
single byte. Otherwise the caret stands too far to the right, by one place for each continuation
byte before the column (`caret_quoted`); so an accent in a comment moves the carets of all names
behind it (`caret_shifted`).
-/

namespace LineReview

/-! ## Indentation by bytes and by characters -/

namespace Report

open Rune (IsSpelled)

/-- What stands under one code point: a tab under a tab and a space under any other. -/
def mark (r : Rune) : UInt8 := if r.code = 9 then 9 else 32

/-- The indentation that has one character for each code point. -/
def runeIndent (before : Text) : Text := (Text.runes before).map mark

/-- Under a properly spelled code point stand its own character and a space for each continuation
byte. -/
theorem caretIndent_raw {r : Rune} (hr : IsSpelled r) :
    caretIndent r.raw = mark r :: List.replicate (r.raw.countP Text.isContinuation) 32 := by
  cases hr with
  | @ascii b hb =>
      have hcont := Text.not_isContinuation_of_lt hb
      simp [caretIndent, mark, hcont, ← UInt8.toNat_inj]
  | @wide code a cs hcode ha hne hcs =>
      have hlead : ¬ Text.isContinuation a = true := by
        rw [Text.isContinuation_iff]
        omega
      have htab (c : UInt8) (hc : 128 ≤ c.toNat) : c ≠ 9 := by
        rintro rfl
        exact absurd hc (by decide)
      have hrest : caretIndent cs = List.replicate cs.length 32 := by
        rw [caretIndent, List.eq_replicate_iff, List.length_map]
        refine ⟨rfl, List.forall_mem_map.mpr fun c hc => ?_⟩
        exact if_neg (htab c (Text.isContinuation_iff.mp (hcs c hc)).1)
      rw [List.countP_cons_of_neg hlead, List.countP_eq_length.mpr hcs, ← hrest, mark,
        if_neg (show code ≠ 9 by omega)]
      exact congrArg (· :: caretIndent cs) (if_neg (htab a (by omega)))

section Utf8

variable {before : Text} (h : Text.isUtf8 before = true)
include h

theorem caretIndent_eq_flatMap :
    caretIndent before = (Text.runes before).flatMap fun r =>
      mark r :: List.replicate (r.raw.countP Text.isContinuation) 32 := by
  calc caretIndent before
      = (Text.runes before).flatMap fun r => caretIndent r.raw := by
        conv_lhs => rw [← Text.ofRunes_runes before, Text.ofRunes, caretIndent, List.map_flatMap]
        rfl
    _ = _ := List.flatMap_congr fun r hr => caretIndent_raw (Text.isSpelled_of_mem_runes h hr)

/-- The caret stands too far to the right by one place for each continuation byte. -/
theorem length_caretIndent :
    (caretIndent before).length =
      (runeIndent before).length + before.countP Text.isContinuation := by
  have hcount : before.countP Text.isContinuation =
      ((Text.runes before).map fun r => r.raw.countP Text.isContinuation).sum := by
    conv_lhs => rw [← Text.ofRunes_runes before, Text.ofRunes, List.countP_flatMap]
    rfl
  rw [caretIndent_eq_flatMap h, List.length_flatMap, runeIndent, List.length_map, hcount]
  simp [List.sum_map_add, Nat.add_comm]

/-- Bytes and characters agree on ASCII text, and on no other. -/
theorem caretIndent_eq_runeIndent_iff :
    caretIndent before = runeIndent before ↔ ∀ b ∈ before, b < 0x80 := by
  rw [← Text.countP_isContinuation_eq_zero h]
  constructor
  · intro heq
    have hlength := length_caretIndent h
    rw [heq] at hlength
    omega
  · intro hzero
    have hraw : ∀ r ∈ Text.runes before, r.raw.countP Text.isContinuation = 0 := by
      intro r hr
      rw [List.countP_eq_zero] at hzero ⊢
      intro b hb
      exact hzero b (Text.mem_iff_exists_rune.mpr ⟨r, hr, hb⟩)
    rw [caretIndent_eq_flatMap h, runeIndent, List.map_eq_flatMap]
    refine List.flatMap_congr fun r hr => ?_
    rw [hraw r hr, List.replicate_zero]

end Utf8

/-! ## In the report -/

/-- The line that names a diagnostic. -/
def headline (color : Bool) (d : Diagnostic) : Text :=
  bytes "  " ++ paint color "36" "0" (bytes "line " ++ Text.decimal d.line.toNat)
    ++ bytes ": " ++ d.message ++ [10]

/-- A quoted line and, below it, the caret behind an indentation. -/
def quotation (color : Bool) (line indent : Text) : Text :=
  bytes "    | " ++ line ++ [10]
    ++ (bytes "    | " ++ indent ++ paint color "33" "0" (bytes "^") ++ [10])

theorem quoteLine_eq {f : SourceFile} {d : Diagnostic} (hline : 1 ≤ d.line)
    (hlast : d.line.toNat ≤ f.lineCount) (hcol : 1 ≤ d.col)
    (hend : d.col.toNat ≤ (f.line d.line.toNat).length + 1) (color : Bool) :
    quoteLine color f d = quotation color (f.line d.line.toNat)
      (caretIndent ((f.line d.line.toNat).take (d.col.toNat - 1))) := by
  have hpos {n : UInt32} (h : 1 ≤ n) : n ≠ 0 := by
    rintro rfl
    exact absurd h (by decide)
  rw [quoteLine, if_neg (by simp [hpos hline, hlast])]
  dsimp only
  rw [if_neg (by simp [hpos hcol, hend]), quotation]

/-- What is written for a member is part of what is written for the list. -/
theorem infix_flatMap {α : Type} {x : α} {xs : List α} (hx : x ∈ xs) (g : α → Text) :
    g x <:+: xs.flatMap g := by
  rw [List.flatMap_def]
  exact List.infix_of_mem_flatten (List.mem_map_of_mem hx)

/-- Every diagnostic of a file that lines can be taken from is followed by the line quoted. -/
theorem quoteLine_infix_text {o : TextOptions} {r : Report} {f : FileResult} {d : Diagnostic}
    {s : SourceFile} (hf : f ∈ r.files) (hd : d ∈ f.diagnostics)
    (hs : o.sources.bind (·.find? f.path) = some s) :
    headline o.color d ++ quoteLine o.color s d <:+: text o r := by
  have hdirty : ¬ r.isClean = true := by
    intro hclean
    rw [isClean, Bool.and_eq_true, List.isEmpty_iff] at hclean
    rw [hclean.1] at hf
    cases hf
  have hblock : headline o.color d ++ quoteLine o.color s d <:+: fileBlock o f := by
    rw [fileBlock, hs]
    exact (infix_flatMap hd fun d => headline o.color d ++ quoteLine o.color s d).trans
      (List.suffix_append _ _).isInfix
  rw [text, if_neg hdirty]
  exact (hblock.trans (infix_flatMap hf (fileBlock o))).trans (List.prefix_append _ _).isInfix

/-- Below a diagnostic stands its line, and below this the caret. The caret's line has a tab for
each tab before the column, and for any other code point as many spaces as it has bytes. So it
has one character for each code point exactly where the text before the column is plain ASCII;
otherwise the caret is off by the number of continuation bytes. -/
theorem caret_quoted {o : TextOptions} {r : Report} {f : FileResult} {d : Diagnostic}
    {set : FileSet} {s : SourceFile} (hf : f ∈ r.files) (hd : d ∈ f.diagnostics)
    (hset : o.sources = some set) (hs : set.find? f.path = some s)
    (hline : 1 ≤ d.line) (hlast : d.line.toNat ≤ s.lineCount)
    (hutf8 : Text.isUtf8 (s.line d.line.toNat) = true)
    (hcol : 1 ≤ d.col) (hend : d.col.toNat ≤ (s.line d.line.toNat).length + 1)
    (hcut : Text.IsBoundary (s.line d.line.toNat) (d.col.toNat - 1)) :
    ∃ before after indent,
      s.line d.line.toNat = before ++ after ∧ before.length = d.col.toNat - 1 ∧
      headline o.color d ++ quotation o.color (before ++ after) indent <:+: text o r ∧
      indent = ((Text.runes before).flatMap fun c =>
        mark c :: List.replicate (c.raw.countP Text.isContinuation) 32) ∧
      indent.length = (Text.runes before).length + before.countP Text.isContinuation ∧
      (indent = runeIndent before ↔ ∀ b ∈ before, b < 0x80) := by
  generalize hl : s.line d.line.toNat = line at *
  have hbefore := Text.isUtf8_take hutf8 hcut
  have hlength := length_caretIndent hbefore
  rw [runeIndent, List.length_map] at hlength
  refine ⟨line.take (d.col.toNat - 1), line.drop (d.col.toNat - 1), _,
    (List.take_append_drop _ _).symm, ?_, ?_, caretIndent_eq_flatMap hbefore, hlength,
    caretIndent_eq_runeIndent_iff hbefore⟩
  · exact List.length_take_of_le (by omega)
  · rw [List.take_append_drop, ← hl, ← quoteLine_eq hline hlast hcol (hl ▸ hend)]
    refine quoteLine_infix_text hf hd ?_
    rw [hset, Option.bind_some, hs]

/-- A file with an accent before the name of a class, and a line that ends in one. -/
def accented : FileSet :=
  FileSet.addVirtual {} (bytes "a.cpp") (bytes "/*é*/ class foo {};\n\tü\n")

/-- A report of one diagnostic in that file. -/
def reportAt (line col : UInt32) : Report :=
  { files := [⟨bytes "a.cpp", [⟨.error, .className, line, col, bytes "bad name"⟩]⟩] }

theorem caret_quoted_past_end :
    ∃ before after indent, bytes "\tü" = before ++ after ∧ before.length = 3 ∧
      bytes "  line 2: bad name\n" ++ quotation false (before ++ after) indent <:+:
        text { sources := some accented } (reportAt 2 4) ∧
      indent = ((Text.runes before).flatMap fun c =>
        mark c :: List.replicate (c.raw.countP Text.isContinuation) 32) ∧
      indent.length = (Text.runes before).length + before.countP Text.isContinuation ∧
      (indent = runeIndent before ↔ ∀ b ∈ before, b < 0x80) :=
  caret_quoted (o := { sources := some accented }) (r := reportAt 2 4) List.mem_cons_self
    List.mem_cons_self rfl rfl (by decide) (by decide +kernel) (by decide +kernel) (by decide)
    (by decide +kernel) (by decide +kernel)

/-- The accent moves the caret of the name behind it, which stands under the second letter. -/
theorem caret_shifted :
    let line := bytes "/*é*/ class foo {};"
    let report := text { sources := some accented } (reportAt 1 14)
    (accented.find? (bytes "a.cpp")).map (·.line 1) = some line ∧
      Text.isUtf8 line = true ∧ Text.IsBoundary line 13 ∧ bytes "foo" <+: line.drop 13 ∧
      quotation false line (List.replicate 13 32) <:+: report ∧
      runeIndent (line.take 13) = List.replicate 12 32 ∧
      ¬ quotation false line (runeIndent (line.take 13)) <:+: report := by
  decide +kernel

end Report

end LineReview
