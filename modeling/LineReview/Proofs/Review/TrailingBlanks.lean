import LineReview.Proofs.Classifier.TrailingBlanks
import LineReview.Proofs.Review.Locality

/-!
# Blanks at the ends of lines

Blanks at the end of a line are never reviewed. They add no sites
(`Classifier.classify_append`), they do not count towards the length, and where
a line has indentation at all they are not part of it (`Layout.check_append`).
So a review does not depend on them (`lines_append_blanks`).
-/

namespace LineReview

open Text (IsBlanks)

namespace Layout

variable {s : Text}

theorem length_append (hs : IsBlanks s) (widths : Text.Widths) (measure line : Text) :
    length widths measure (line ++ s) = length widths measure line := by
  rw [length, length, Text.trimRight_append hs]

/-- The leading white space is indentation when something follows it. -/
theorem indentation?_eq (line : Text) :
    indentation? line =
      if Text.leading line = [] ∨ Text.trimLeft line = [] then none
      else some (Text.leading line) := by
  have hwhole := congrArg List.length (Text.leading_append_trimLeft line)
  rw [List.length_append] at hwhole
  have hall : (Text.leading line).length = line.length ↔ Text.trimLeft line = [] := by
    rw [← List.length_eq_zero_iff]
    omega
  unfold indentation?
  simp only [hall, Bool.or_eq_true, decide_eq_true_eq]

theorem indentation?_append (hs : IsBlanks s) (line : Text) :
    indentation? (line ++ s) = indentation? line := by
  by_cases hnil : Text.trimLeft line = []
  · have hnil' : Text.trimLeft (line ++ s) = [] := by
      rw [Text.trimLeft_append hs, if_pos hnil]
    rw [indentation?_eq, indentation?_eq, if_pos (.inr hnil'), if_pos (.inr hnil)]
  · have hlead : Text.leading (line ++ s) = Text.leading line := by
      rw [Text.leading_append hs, if_neg hnil]
    have hrest : Text.trimLeft (line ++ s) ≠ [] := by
      rw [Text.trimLeft_append hs, if_neg hnil]
      exact List.append_ne_nil_of_left_ne_nil hnil s
    simp only [indentation?_eq, hlead, hrest, hnil]

theorem check_append (hs : IsBlanks s) (widths : Text.Widths) (o : LayoutOptions) (line : Text)
    (n : UInt32) : check widths o (line ++ s) n = check widths o line n := by
  rw [check, check, findings, findings, lengthFinding, lengthFinding, length_append hs,
    indentation?_append hs]

end Layout

namespace Review

theorem allFindings_append_blanks (widths : Text.Widths) (o : ReviewOptions)
    {ls : List (UInt32 × Text × Text)} (h : ∀ l ∈ ls, IsBlanks l.2.2) :
    allFindings widths o (ls.map fun l => (l.1, l.2.1 ++ l.2.2)) =
      allFindings widths o (ls.map fun l => (l.1, l.2.1)) := by
  rw [allFindings, allFindings, List.flatMap_map, List.flatMap_map]
  refine List.flatMap_congr ?_
  intro l hl
  rw [findings, findings, Classifier.classify_append (h l hl), Layout.check_append (h l hl)]

/-- Tabs, spaces, carriage returns and other blanks behind a line are no part of its review: the
line has the same sites and the same layout findings, and lines with blanks behind some of them have
the same diagnostics. -/
theorem lines_append_blanks (widths : Text.Widths) (o : ReviewOptions) :
    (∀ line s, IsBlanks s →
      Classifier.classify o.classifier (line ++ s) = Classifier.classify o.classifier line) ∧
    (∀ line s n, IsBlanks s →
      Layout.check widths o.layout (line ++ s) n = Layout.check widths o.layout line n) ∧
    ∀ ls : List (UInt32 × Text × Text), (∀ l ∈ ls, IsBlanks l.2.2) →
      lines widths o (ls.map fun l => (l.1, l.2.1 ++ l.2.2)) =
        lines widths o (ls.map fun l => (l.1, l.2.1)) := by
  refine ⟨?_, ?_, ?_⟩
  · intro line s hs
    exact Classifier.classify_append hs o.classifier line
  · intro line s n hs
    exact Layout.check_append hs widths o.layout line n
  · intro ls h
    rw [lines, lines, foldl_addAll, foldl_addAll, allFindings_append_blanks widths o h]

/-- An enum and a class that are not closed on their lines, a comparison, and a line with odd
indentation, with blanks behind each of them. -/
theorem lines_append_blanks_open :
    let o : ReviewOptions :=
      { classifier := { enumerators := true }, layout := { maxLineLength := 20, indent := true } }
    let ls : List (UInt32 × Text × Text) :=
      [(1, bytes "enum Color \x7b red, blue", [32, 9, 13]), (2, bytes "class C \x7b int x;", [32]),
        (3, bytes "if (a ==", [9, 13]), (4, bytes "   int y =", [13, 32])]
    (lines .western o (ls.map fun l => (l.1, l.2.1))).length = 7 ∧
      lines .western o (ls.map fun l => (l.1, l.2.1 ++ l.2.2)) =
        lines .western o (ls.map fun l => (l.1, l.2.1)) :=
  ⟨by decide +kernel, (lines_append_blanks _ _).2.2 _ (by decide)⟩

end Review

end LineReview
