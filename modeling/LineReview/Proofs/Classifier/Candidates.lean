import LineReview.Proofs.Classifier.Runs
import Mathlib.Order.Bounds.Defs

/-!
# The candidates of a line

The expression for variables begins with `const` or `bool` or neither, so its
matches could begin in the middle of a word, take a keyword for a name or swallow
a name that stands where the last match goes on. They do none of this: the names
of the candidates are exactly the runs that an equals sign or a semicolon follows,
from left to right (`candidates_exact`).

A match is described by offsets of the line (`IsMatch`), and the search only by
where it finds one: at the first place at which any match begins (`IsFirst`). All
else follows from what stands where. A name cannot be made longer on the left, as
then a match would begin further left. No run with a mark behind it lies between
the beginning of a match and its name, as there are only qualifiers, which hold no
mark. And the next search begins behind a mark, so nothing goes on there.
-/

namespace LineReview

open Text (IsBlanks)

namespace Text

theorem drop_eq_slice_append (t : Text) {i j : Nat} (h : i ≤ j) :
    t.drop i = t.slice i j ++ t.drop j := by
  have hdrop : t.drop j = (t.drop i).drop (j - i) := by
    rw [List.drop_drop, Nat.add_sub_cancel' h]
  rw [slice, hdrop, List.take_append_drop]

theorem of_mem_slice {t : Text} {p : UInt8 → Bool} {i j : Nat}
    (h : ∀ k, i ≤ k → k < j → t.hasAt p k = true) : ∀ b ∈ t.slice i j, p b = true := by
  intro b hb
  obtain ⟨n, hn, hget⟩ := List.getElem_of_mem hb
  have hlength : n < j - i := by
    rw [slice, List.length_take] at hn
    omega
  have hat := h (i + n) (by omega) (by omega)
  rw [← hasAt_drop, hasAt, ← List.getElem?_take_of_lt hlength] at hat
  change (t.slice i j)[n]?.any p = true at hat
  rw [List.getElem?_eq_getElem hn, hget] at hat
  exact hat

/-- What stands in a slice stands at an offset of the text. -/
theorem mem_slice_of_hasAt {t : Text} {p : UInt8 → Bool} {i j k : Nat} (hlow : i ≤ k)
    (hhigh : k < j) (h : t.hasAt p k = true) : ∃ b ∈ t.slice i j, p b = true := by
  obtain ⟨b, hb, hp⟩ := hasAt_eq_true_iff.mp h
  refine ⟨b, List.mem_of_getElem? (i := k - i) ?_, hp⟩
  rw [slice, List.getElem?_take_of_lt (by omega), List.getElem?_drop, Nat.add_sub_cancel' hlow, hb]

end Text

namespace Classifier

/-! ## Matches -/

/-- The marks that end a variable: an equals sign or a semicolon. -/
def isMark (b : UInt8) : Bool := b == 61 || b == 59

theorem isWordByte_of_isMark {b : UInt8} (h : isMark b = true) : isWordByte b = false := by
  have hb : b = 61 ∨ b = 59 := by simpa [isMark] using h
  rcases hb with rfl | rfl <;> rfl

theorem isBlank_of_isMark {b : UInt8} (h : isMark b = true) : Text.isBlank b = false := by
  have hb : b = 61 ∨ b = 59 := by simpa [isMark] using h
  rcases hb with rfl | rfl <;> rfl

theorem isMark_of_isBlank {b : UInt8} (h : Text.isBlank b = true) : isMark b = false := by
  rcases Text.eq_of_isBlank h with rfl | rfl | rfl | rfl | rfl <;> rfl

theorem isBlank_of_isWordByte {b : UInt8} (h : isWordByte b = true) : Text.isBlank b = false := by
  cases hb : Text.isBlank b with
  | false => rfl
  | true => rw [isWordByte_of_isBlank hb] at h; cases h

theorem isMark_of_isWordByte {b : UInt8} (h : isWordByte b = true) : isMark b = false := by
  cases hb : isMark b with
  | false => rfl
  | true => rw [isWordByte_of_isMark hb] at h; cases h

/-- What may stand before the name of a variable: `const`, `bool`, both in this order, each with
blanks behind it, or nothing. -/
inductive IsQualifier : Text → Prop
  | nothing : IsQualifier []
  | const {s : Text} (hne : s ≠ []) (hs : IsBlanks s) : IsQualifier (bytes "const" ++ s)
  | bool {s : Text} (hne : s ≠ []) (hs : IsBlanks s) : IsQualifier (bytes "bool" ++ s)
  | both {s u : Text} (hne : s ≠ []) (hs : IsBlanks s) (hne' : u ≠ []) (hu : IsBlanks u) :
      IsQualifier (bytes "const" ++ s ++ (bytes "bool" ++ u))

namespace IsQualifier

variable {q : Text}

/-- A qualifier holds no mark. -/
theorem isMark_eq_false (h : IsQualifier q) : ∀ b ∈ q, isMark b = false := by
  have hword : ∀ {k : String} {s : Text}, IsKeyword k → IsBlanks s →
      ∀ b ∈ bytes k ++ s, isMark b = false := by
    intro k s hk hs b hb
    rcases List.mem_append.mp hb with hb | hb
    · exact isMark_of_isWordByte (hk.2 b hb)
    · exact isMark_of_isBlank (hs b hb)
  have hconst : IsKeyword "const" := by decide
  have hbool : IsKeyword "bool" := by decide
  cases h with
  | nothing => nofun
  | const _ hs => exact hword hconst hs
  | bool _ hs => exact hword hbool hs
  | both _ hs _ hu =>
      intro b hb
      rcases List.mem_append.mp hb with hb | hb
      · exact hword hconst hs b hb
      · exact hword hbool hu b hb

/-- A qualifier that is there ends in a blank. -/
theorem isBlank_last (h : IsQualifier q) : ∀ b ∈ q.getLast?, Text.isBlank b = true := by
  have hblanks : ∀ {k s : Text}, s ≠ [] → IsBlanks s → ∀ b ∈ (k ++ s).getLast?,
      Text.isBlank b = true := by
    intro k s hne hs b hb
    rw [List.getLast?_append_of_ne_nil _ hne] at hb
    exact hs b (List.mem_of_getLast? hb)
  cases h with
  | nothing => nofun
  | const hne hs => exact hblanks hne hs
  | bool hne hs => exact hblanks hne hs
  | both _ _ hne hu =>
      rw [← List.append_assoc]
      exact hblanks hne hu

end IsQualifier

/-- The offsets from which a qualifier, or nothing, goes up to `i`. -/
def qualifierStarts (line : Text) (i : Nat) : Set Nat :=
  {p | p ≤ i ∧ IsQualifier (line.slice p i)}

section

variable {line : Text} {p i : Nat}

theorem self_mem_qualifierStarts (line : Text) (i : Nat) : i ∈ qualifierStarts line i := by
  refine ⟨Nat.le_refl i, ?_⟩
  rw [Text.slice, Nat.sub_self, List.take_zero]
  exact .nothing

theorem not_isMark_of_mem (h : p ∈ qualifierStarts line i) {k : Nat} (hlow : p ≤ k) (hhigh : k < i) :
    line.hasAt isMark k = false := by
  by_contra hmark
  obtain ⟨b, hb, hb'⟩ := Text.mem_slice_of_hasAt hlow hhigh (Bool.not_eq_false _ ▸ hmark)
  rw [h.2.isMark_eq_false b hb] at hb'
  cases hb'

theorem isBlank_of_mem (h : p ∈ qualifierStarts line (i + 1)) (hp : p ≤ i) (hi : i < line.length) :
    line.hasAt Text.isBlank i = true := by
  refine Text.hasAt_eq_true_iff.mpr ⟨_, List.getElem?_eq_getElem hi, h.2.isBlank_last _ ?_⟩
  have hlength : (line.slice p (i + 1)).length = i + 1 - p := by
    rw [Text.slice, List.length_take, List.length_drop]
    omega
  have hlast : p + (i + 1 - p - 1) = i := by omega
  rw [Option.mem_def, List.getLast?_eq_getElem?, hlength, Text.slice,
    List.getElem?_take_of_lt (by omega), List.getElem?_drop, hlast, List.getElem?_eq_getElem hi]

end

/-- The first byte behind the range that is no blank is a mark, and stands at offset `e`. -/
structure Span.IsEnded (r : Span) (line : Text) (e : Nat) : Prop where
  le : r.stop ≤ e
  blank : ∀ i, r.stop ≤ i → i < e → line.hasAt Text.isBlank i = true
  mark : line.hasAt isMark e = true

/-- Up to the mark there is no word behind the range. -/
theorem Span.IsEnded.not_word {r : Span} {line : Text} {e i : Nat} (h : r.IsEnded line e)
    (hlow : r.stop ≤ i) (hhigh : i ≤ e) : line.hasAt isWordByte i = false := by
  rcases Nat.lt_or_eq_of_le hhigh with hlt | rfl
  · exact Text.hasAt_eq_false (fun _ => isWordByte_of_isBlank) (h.blank i hlow hlt)
  · exact Text.hasAt_eq_false (fun _ => isWordByte_of_isMark) h.mark

theorem Span.IsEnded.unique {r : Span} {line : Text} {e e' : Nat} (h : r.IsEnded line e)
    (h' : r.IsEnded line e') : e = e' := by
  have hle : ∀ {e e' : Nat}, r.IsEnded line e → r.IsEnded line e' → e ≤ e' := by
    intro e e' h h'
    by_contra hlt
    have hoff := Text.hasAt_eq_false (fun _ => isMark_of_isBlank) (h.blank e' h'.le (by omega))
    rw [h'.mark] at hoff
    cases hoff
  exact Nat.le_antisymm (hle h h') (hle h' h)

/-- A match of the expression for variables, wherever it begins: a qualifier or nothing, a word,
and a mark behind it. -/
structure Candidate.IsMatch (c : Candidate) (line : Text) : Prop where
  qualifier : c.start ∈ qualifierStarts line c.name.start
  nonempty : c.name.start < c.name.stop
  word : ∀ i, c.name.start ≤ i → i < c.name.stop → line.hasAt isWordByte i = true
  pos : 0 < c.stop
  ended : c.name.IsEnded line (c.stop - 1)

/-! ## The expression -/

/-- A word in front of a text, a mark behind it, and what follows the mark. -/
structure IsAssignment (t w s : Text) (m : UInt8) (u : Text) : Prop where
  split : t = w ++ (s ++ m :: u)
  nonempty : w ≠ []
  word : ∀ b ∈ w, isWordByte b = true
  blanks : IsBlanks s
  mark : isMark m = true

theorem isAssignment_of_assignedAt {q t : Text} {c : Candidate}
    (h : assignedAt (q ++ t) t = some c) :
    ∃ w s m u, IsAssignment t w s m u ∧
      c = ⟨0, ⟨q.length, q.length + w.length⟩, q.length + w.length + s.length + 1⟩ := by
  obtain ⟨⟨w, r⟩, hword, h⟩ := Option.bind_eq_some_iff.mp h
  obtain ⟨rfl, hne, hw⟩ := wordAt_eq_some hword
  dsimp only at h
  cases hrest : r.dropWhile Text.isBlank with
  | nil =>
      rw [hrest] at h
      cases h
  | cons m u =>
      rw [hrest] at h
      dsimp only at h
      split at h
      · rename_i hmark
        cases h
        have hr : r = r.takeWhile Text.isBlank ++ m :: u := by
          rw [← hrest, List.takeWhile_append_dropWhile]
        refine ⟨w, r.takeWhile Text.isBlank, m, u, ⟨by rw [← hr], hne, hw,
          fun b hb => List.mem_takeWhile_imp hb, hmark⟩, ?_⟩
        have hlength : (q ++ (w ++ r)).length - u.length =
            q.length + w.length + (r.takeWhile Text.isBlank).length + 1 := by
          have := congrArg List.length hr
          simp only [List.length_append, List.length_cons] at this ⊢
          omega
        rw [spanOf_behind, hlength]
      · cases h

theorem IsAssignment.wordAt {t w s u : Text} {m : UInt8} (h : IsAssignment t w s m u) :
    wordAt t = some (w, s ++ m :: u) := by
  have hrest : BeginsOutside (s ++ m :: u) := by
    intro b hb
    cases s with
    | nil =>
        cases hb
        exact isWordByte_of_isMark h.mark
    | cons c s =>
        cases hb
        exact isWordByte_of_isBlank (h.blanks b List.mem_cons_self)
  unfold Classifier.wordAt
  dsimp only
  rw [h.split, List.takeWhile_append_of_pos h.word, List.dropWhile_append_of_pos h.word,
    (while_of_head? hrest).1, (while_of_head? hrest).2, List.append_nil, if_neg]
  exact fun hempty => h.nonempty (List.isEmpty_iff.mp hempty)

theorem IsAssignment.isSome {t w s u : Text} {m : UInt8} (h : IsAssignment t w s m u)
    (whole : Text) : (assignedAt whole t).isSome := by
  have hmark : (m == 61 || m == 59) = true := h.mark
  have hdrop : (s ++ m :: u).dropWhile Text.isBlank = m :: u := by
    rw [List.dropWhile_append_of_pos h.blanks,
      List.dropWhile_cons_of_neg (Bool.eq_false_iff.mp (isBlank_of_isMark h.mark))]
  unfold assignedAt
  rw [h.wordAt, Option.bind_eq_bind, Option.bind_some]
  dsimp only
  rw [hdrop]
  dsimp only
  rw [if_pos hmark]
  rfl

/-- A name with a mark behind it, where `bool` may stand before the name. -/
def boolAssignedAt (whole r : Text) : Option Candidate :=
  ((keywordAt "bool" r).bind (assignedAt whole)).or (assignedAt whole r)

theorem candidateAt_eq (t : Text) :
    candidateAt t = ((keywordAt "const" t).bind (boolAssignedAt t)).or (boolAssignedAt t t) := by
  unfold candidateAt boolAssignedAt
  simp only [Option.orElse_eq_or]

/-- What a candidate in front of a text consists of. -/
theorem split_of_candidateAt {t : Text} {c : Candidate} (h : candidateAt t = some c) :
    ∃ q r w s m u, IsQualifier q ∧ t = q ++ r ∧ IsAssignment r w s m u ∧
      c = ⟨0, ⟨q.length, q.length + w.length⟩, q.length + w.length + s.length + 1⟩ := by
  have hassigned : ∀ {q r : Text}, IsQualifier q → t = q ++ r → assignedAt t r = some c →
      ∃ q r w s m u, IsQualifier q ∧ t = q ++ r ∧ IsAssignment r w s m u ∧
        c = ⟨0, ⟨q.length, q.length + w.length⟩, q.length + w.length + s.length + 1⟩ := by
    rintro q r hq rfl h
    obtain ⟨w, s, m, u, hr, hc⟩ := isAssignment_of_assignedAt h
    exact ⟨q, r, w, s, m, u, hq, rfl, hr, hc⟩
  rw [candidateAt_eq, Option.or_eq_some_iff] at h
  rcases h with h | ⟨_, h⟩
  · obtain ⟨r, hconst, h⟩ := Option.bind_eq_some_iff.mp h
    obtain ⟨s, hne, hs, ht, _⟩ := keywordAt_eq_some_iff.mp hconst
    rcases Option.or_eq_some_iff.mp h with h | ⟨_, h⟩
    · obtain ⟨r', hbool, h⟩ := Option.bind_eq_some_iff.mp h
      obtain ⟨u, hne', hu, hr, _⟩ := keywordAt_eq_some_iff.mp hbool
      refine hassigned (.both hne hs hne' hu) ?_ h
      rw [ht, hr]
      simp only [List.append_assoc]
    · refine hassigned (.const hne hs) ?_ h
      rw [ht, List.append_assoc]
  · rcases Option.or_eq_some_iff.mp h with h | ⟨_, h⟩
    · obtain ⟨r, hbool, h⟩ := Option.bind_eq_some_iff.mp h
      obtain ⟨u, hne, hu, ht, _⟩ := keywordAt_eq_some_iff.mp hbool
      refine hassigned (.bool hne hu) ?_ h
      rw [ht, List.append_assoc]
    · exact hassigned .nothing rfl h

/-- Every qualifier, or none, may stand before a name with a mark behind it. -/
theorem isSome_candidateAt {q r w s u : Text} {m : UInt8} (hq : IsQualifier q)
    (h : IsAssignment r w s m u) : (candidateAt (q ++ r)).isSome := by
  have hhead : ∀ b ∈ r.head?, Text.isBlank b = false := by
    obtain ⟨b, w, rfl⟩ := List.exists_cons_of_ne_nil h.nonempty
    rw [h.split]
    intro c hc
    cases hc
    exact isBlank_of_isWordByte (h.word b List.mem_cons_self)
  have hplain : ∀ whole, (boolAssignedAt whole r).isSome := by
    intro whole
    rw [boolAssignedAt, Option.isSome_or, h.isSome whole, Bool.or_true]
  have hbool : ∀ whole {v : Text}, v ≠ [] → IsBlanks v →
      (boolAssignedAt whole (bytes "bool" ++ (v ++ r))).isSome := by
    intro whole v hne hv
    rw [boolAssignedAt, keywordAt_eq_some_iff.mpr ⟨v, hne, hv, rfl, hhead⟩, Option.bind_some,
      Option.isSome_or, h.isSome whole, Bool.true_or]
  rw [candidateAt_eq, Option.isSome_or]
  cases hq with
  | nothing => rw [List.nil_append, hplain, Bool.or_true]
  | bool hne hv => rw [List.append_assoc, hbool _ hne hv, Bool.or_true]
  | const hne hv =>
      rw [List.append_assoc, keywordAt_eq_some_iff.mpr ⟨_, hne, hv, rfl, hhead⟩, Option.bind_some,
        hplain, Bool.true_or]
  | @both v v' hne hv hne' hv' =>
      have hsplit : bytes "const" ++ v ++ (bytes "bool" ++ v') ++ r =
          bytes "const" ++ (v ++ (bytes "bool" ++ (v' ++ r))) := by
        simp only [List.append_assoc]
      have hfirst : ∀ b ∈ (bytes "bool" ++ (v' ++ r)).head?, Text.isBlank b = false := by
        intro b hb
        cases hb
        rfl
      rw [hsplit, keywordAt_eq_some_iff.mpr ⟨v, hne, hv, rfl, hfirst⟩, Option.bind_some,
        hbool _ hne' hv', Bool.true_or]

/-- The expression finds a match where it finds something. -/
theorem isMatch_of_candidateAt {line : Text} {n : Nat} {c : Candidate}
    (h : candidateAt (line.drop n) = some c) :
    Candidate.IsMatch ⟨n, c.name.shift n, c.stop + n⟩ line := by
  obtain ⟨q, r, w, s, m, u, hq, ht, hr, rfl⟩ := split_of_candidateAt h
  have hat : ∀ p i, line.hasAt p (n + (q.length + i)) = r.hasAt p i := by
    intro p i
    rw [← Text.hasAt_drop, ht, Text.hasAt_append_right]
  have hword : ∀ i, i < w.length → r.hasAt isWordByte i = true := by
    intro i hi
    rw [hr.split, Text.hasAt_append_left hi]
    exact Text.hasAt_of_all hr.word hi
  have hblank : ∀ i, i < s.length → r.hasAt Text.isBlank (w.length + i) = true := by
    intro i hi
    rw [hr.split, Text.hasAt_append_right, Text.hasAt_append_left hi]
    exact Text.hasAt_of_all hr.blanks hi
  have hmark : r.hasAt isMark (w.length + (s.length + 0)) = true := by
    rw [hr.split, Text.hasAt_append_right, Text.hasAt_append_right]
    exact Text.hasAt_eq_true_iff.mpr ⟨m, rfl, hr.mark⟩
  have hpos := List.length_pos_iff.mpr hr.nonempty
  refine ⟨⟨Nat.le_add_left _ _, ?_⟩, ?_, ?_, Nat.add_pos_left (Nat.succ_pos _) _, ?_, ?_, ?_⟩ <;>
    dsimp only [Span.shift]
  · rw [Text.slice, Nat.add_sub_cancel, ht, List.take_left]
    exact hq
  · omega
  · intro i hlow hhigh
    obtain ⟨k, rfl⟩ := Nat.exists_eq_add_of_le hlow
    rw [Nat.add_right_comm, Nat.add_comm _ n, hat]
    exact hword k (by omega)
  · omega
  · intro i hlow hhigh
    obtain ⟨k, rfl⟩ := Nat.exists_eq_add_of_le hlow
    have hi : q.length + w.length + n + k = n + (q.length + (w.length + k)) := by omega
    rw [hi, hat]
    exact hblank k (by omega)
  · have he : q.length + w.length + s.length + 1 + n - 1 =
        n + (q.length + (w.length + (s.length + 0))) := by omega
    rw [he, hat]
    exact hmark

/-- The expression finds something wherever a match begins. -/
theorem isSome_of_isMatch {line : Text} {c : Candidate} (h : c.IsMatch line) :
    (candidateAt (line.drop c.start)).isSome := by
  have hpos := h.pos
  have hle := h.ended.le
  obtain ⟨m, hm, hmark⟩ := Text.hasAt_eq_true_iff.mp h.ended.mark
  have hsplit : line.drop c.name.start = c.name.of line ++
      (line.slice c.name.stop (c.stop - 1) ++ m :: line.drop (c.stop - 1 + 1)) := by
    rw [Text.drop_eq_slice_append line (Nat.le_of_lt h.nonempty),
      Text.drop_eq_slice_append line hle, List.drop_eq_getElem?_toList_append, hm]
    rfl
  rw [Text.drop_eq_slice_append line h.qualifier.1]
  have hne : c.name.of line ≠ [] := by
    have hstop := Text.lt_of_hasAt (h.word c.name.start (Nat.le_refl _) h.nonempty)
    have hname := h.nonempty
    rw [← List.length_pos_iff, Span.of, Text.slice, List.length_take, List.length_drop]
    omega
  exact isSome_candidateAt h.qualifier.2
    ⟨hsplit, hne, Text.of_mem_slice h.word, Text.of_mem_slice h.ended.blank, hmark⟩

/-! ## The search -/

/-- The match begins at or behind `n`, and no other such match begins before it. -/
structure Candidate.IsFirst (c : Candidate) (line : Text) (n : Nat) : Prop where
  isMatch : c.IsMatch line
  le : n ≤ c.start
  first : ∀ d : Candidate, d.IsMatch line → n ≤ d.start → c.start ≤ d.start

/-- Where the expression finds nothing, every match that begins there or behind begins behind. -/
theorem succ_le_start {line : Text} {n : Nat} (h : candidateAt (line.drop n) = none) {d : Candidate}
    (hd : d.IsMatch line) (hn : n ≤ d.start) : n + 1 ≤ d.start := by
  refine Nat.lt_of_le_of_ne hn ?_
  rintro rfl
  have hsome := isSome_of_isMatch hd
  rw [h] at hsome
  cases hsome

theorem isFirst_of_searchCandidate {line t : Text} {n : Nat} {c : Candidate} (ht : line.drop n = t)
    (h : searchCandidate n t = some c) : c.IsFirst line n := by
  induction t generalizing n with
  | nil => cases h
  | cons b t ih =>
      rw [searchCandidate] at h
      split at h
      · rename_i c' hc'
        cases h
        rw [← ht] at hc'
        exact ⟨isMatch_of_candidateAt hc', Nat.le_refl n, fun _ _ hd => hd⟩
      · rename_i hnone
        have htail : line.drop (n + 1) = t := by
          rw [← List.drop_drop, ht]
          rfl
        have hfirst := ih htail h
        refine ⟨hfirst.isMatch, Nat.le_of_succ_le hfirst.le, ?_⟩
        intro d hd hn
        exact hfirst.first d hd (succ_le_start (ht ▸ hnone) hd hn)

theorem lt_of_searchCandidate {line t : Text} {n : Nat} (ht : line.drop n = t)
    (h : searchCandidate n t = none) {d : Candidate} (hd : d.IsMatch line) : d.start < n := by
  by_contra hn
  rw [Nat.not_lt] at hn
  induction t generalizing n with
  | nil =>
      have hlength := List.drop_eq_nil_iff.mp ht
      have hlt := Text.lt_of_hasAt (hd.word d.name.start (Nat.le_refl _) hd.nonempty)
      have hle := hd.qualifier.1
      omega
  | cons b t ih =>
      rw [searchCandidate] at h
      split at h
      · cases h
      · rename_i hnone
        have htail : line.drop (n + 1) = t := by
          rw [← List.drop_drop, ht]
          rfl
        exact ih htail h (succ_le_start (ht ▸ hnone) hd hn)

/-- The offset is the beginning of the line, or a mark stands before it. -/
def IsFresh (line : Text) (n : Nat) : Prop := ∀ i, i + 1 = n → line.hasAt isMark i = true

namespace Candidate

variable {c : Candidate} {line : Text} {n : Nat}

theorem IsMatch.name_le (h : c.IsMatch line) : c.name.stop ≤ line.length := by
  have hpos := h.nonempty
  have hlt := Text.lt_of_hasAt (h.word (c.name.stop - 1) (by omega) (by omega))
  omega

/-- A blank or a mark stands behind the name. -/
theorem IsMatch.after (h : c.IsMatch line) : line.hasAt isWordByte c.name.stop = false :=
  h.ended.not_word (Nat.le_refl _) h.ended.le

/-- A run with a mark behind it is a match without a qualifier. -/
theorem isMatch_of_isRun {r : Span} {e : Nat} (hr : r.IsRun line) (he : r.IsEnded line e) :
    IsMatch ⟨r.start, r, e + 1⟩ line :=
  ⟨self_mem_qualifierStarts line r.start, hr.nonempty, hr.word, Nat.succ_pos e, he⟩

namespace IsFirst

theorem isRun (h : c.IsFirst line n) (hn : IsFresh line n) : c.name.IsRun line where
  nonempty := h.isMatch.nonempty
  word := h.isMatch.word
  after := h.isMatch.after
  before := by
    intro i hi
    by_contra hword
    rw [Bool.not_eq_false] at hword
    have hname := h.isMatch.name_le
    have hpos := h.isMatch.nonempty
    rcases Nat.lt_or_eq_of_le h.isMatch.qualifier.1 with hlt | heq
    · -- a qualifier ends in a blank
      have hblank := isBlank_of_mem (hi ▸ h.isMatch.qualifier) (by omega) (by omega)
      rw [Text.hasAt_eq_false (fun _ => isWordByte_of_isBlank) hblank] at hword
      cases hword
    · have hle := h.le
      by_cases hstart : i + 1 = n
      · rw [Text.hasAt_eq_false (fun _ => isWordByte_of_isMark) (hn i hstart)] at hword
        cases hword
      · -- the name with one byte more in front is a match, too
        have hlonger : IsMatch ⟨i, ⟨i, c.name.stop⟩, c.stop⟩ line := by
          refine ⟨self_mem_qualifierStarts line i, by dsimp only; omega, ?_, h.isMatch.pos,
            ⟨h.isMatch.ended.le, h.isMatch.ended.blank, h.isMatch.ended.mark⟩⟩
          intro j hlow hhigh
          rcases Nat.lt_or_eq_of_le hlow with hlt | heq
          · exact h.isMatch.word j (by dsimp only at hlt; omega) hhigh
          · exact heq ▸ hword
        have hfirst := h.first _ hlonger (by dsimp only; omega)
        dsimp only at hfirst
        omega

/-- The match begins where the longest qualifier of its name does. -/
theorem isLeast (h : c.IsFirst line n) (hn : IsFresh line n) :
    IsLeast (qualifierStarts line c.name.start) c.start := by
  refine ⟨h.isMatch.qualifier, ?_⟩
  intro p hp
  have hle := h.le
  have hname := h.isMatch.qualifier.1
  refine h.first ⟨p, c.name, c.stop⟩
    ⟨hp, h.isMatch.nonempty, h.isMatch.word, h.isMatch.pos, h.isMatch.ended⟩ ?_
  -- a qualifier that began before `n` would hold the mark there
  by_contra hlt
  dsimp only at hlt
  have hmark := hn (n - 1) (by omega)
  rw [not_isMark_of_mem hp (by omega) (by omega)] at hmark
  cases hmark

/-- No run with a mark behind it lies before the name. -/
theorem name_le_of_isRun (h : c.IsFirst line n) {r : Span} {e : Nat} (hr : r.IsRun line)
    (he : r.IsEnded line e) (hle : n ≤ r.start) : c.name.start ≤ r.start := by
  have hstart := h.first _ (isMatch_of_isRun hr he) hle
  dsimp only at hstart
  by_contra hlt
  have hname := h.isMatch.name_le
  have hpos := h.isMatch.nonempty
  obtain ⟨k, hk⟩ : ∃ k, c.name.start = k + 1 := ⟨c.name.start - 1, by omega⟩
  -- the run begins within the qualifier, whose last byte is a blank, so it is over there
  have hblank : line.hasAt Text.isBlank k = true :=
    isBlank_of_mem (hk ▸ h.isMatch.qualifier) (by omega) (by omega)
  have hover : r.stop ≤ k := by
    by_contra hin
    have hword := hr.word k (by omega) (by omega)
    rw [Text.hasAt_eq_false (fun _ => isWordByte_of_isBlank) hblank] at hword
    cases hword
  -- its mark is not in the qualifier, so up to the name there would be only blanks
  have hmark : c.name.start ≤ e := by
    by_contra hin
    have hmark := he.mark
    have hstop := he.le
    have hnonempty := hr.nonempty
    rw [not_isMark_of_mem h.isMatch.qualifier (by omega) (by omega)] at hmark
    cases hmark
  have hfirst := h.isMatch.word c.name.start (Nat.le_refl _) hpos
  rw [he.not_word (by omega) hmark] at hfirst
  cases hfirst

end IsFirst

end Candidate

/-! ## All candidates -/

/-- The candidate names a run with a mark behind it, and begins with the longest qualifier. -/
structure Candidate.IsExact (c : Candidate) (line : Text) : Prop where
  run : c.name.IsRun line
  pos : 0 < c.stop
  ended : c.name.IsEnded line (c.stop - 1)
  least : IsLeast (qualifierStarts line c.name.start) c.start

theorem Candidate.IsFirst.isExact {c : Candidate} {line : Text} {n : Nat} (h : c.IsFirst line n)
    (hn : IsFresh line n) : c.IsExact line :=
  ⟨h.isRun hn, h.isMatch.pos, h.isMatch.ended, h.isLeast hn⟩

/-- Every run behind the name lies behind the whole candidate. -/
theorem Candidate.IsExact.stop_le {c : Candidate} {line : Text} (h : c.IsExact line) {r : Span}
    (hr : r.IsRun line) (hlt : c.name.start < r.start) : c.stop ≤ r.start := by
  have hapart := h.run.apart hr hlt
  have hfirst := hr.word r.start (Nat.le_refl _) hr.nonempty
  by_contra hin
  rw [h.ended.not_word (Nat.le_of_lt hapart) (by omega)] at hfirst
  cases hfirst

/-- Of a search that begins at the front or behind a mark: the candidates name exactly the runs
with a mark behind them that begin at or behind `n`, from left to right. -/
theorem candidatesFrom_exact {line : Text} {fuel n : Nat} (hfuel : line.length ≤ n + fuel)
    (hn : IsFresh line n) :
    (∀ c ∈ candidatesFrom fuel n (line.drop n), c.IsExact line ∧ n ≤ c.name.start) ∧
    (∀ r : Span, r.IsRun line → ∀ e, r.IsEnded line e → n ≤ r.start →
      ∃ c ∈ candidatesFrom fuel n (line.drop n), c.name = r) ∧
    (candidatesFrom fuel n (line.drop n)).Pairwise fun c d => c.name.stop ≤ d.name.start := by
  induction fuel generalizing n with
  | zero =>
      refine ⟨fun _ hc => absurd hc List.not_mem_nil, ?_, .nil⟩
      intro r hr e _ hle
      have hstop := hr.stop_le
      have hpos := hr.nonempty
      omega
  | succ fuel ih =>
      rw [candidatesFrom]
      cases hsearch : searchCandidate n (line.drop n) with
      | none =>
          refine ⟨fun _ hc => absurd hc List.not_mem_nil, ?_, .nil⟩
          intro r hr e he hle
          have hlt := lt_of_searchCandidate rfl hsearch (Candidate.isMatch_of_isRun hr he)
          dsimp only at hlt
          omega
      | some c =>
          have hfirst := isFirst_of_searchCandidate rfl hsearch
          have hexact := hfirst.isExact hn
          have hstart := hfirst.isMatch.qualifier.1
          have hle := hfirst.le
          have hpos := hexact.run.nonempty
          have hstop := hexact.ended.le
          have hrest : (line.drop n).drop (c.stop - n) = line.drop c.stop := by
            rw [List.drop_drop, Nat.add_sub_cancel' (by omega)]
          have hfresh : IsFresh line c.stop := by
            rintro i hi
            rw [show i = c.stop - 1 by omega]
            exact hexact.ended.mark
          obtain ⟨hexacts, hfound, hpairwise⟩ := ih (n := c.stop) (by omega) hfresh
          dsimp only
          rw [hrest]
          refine ⟨?_, ?_, List.pairwise_cons.mpr ⟨?_, hpairwise⟩⟩
          · intro d hd
            rcases List.mem_cons.mp hd with rfl | hd
            · exact ⟨hexact, by omega⟩
            · exact ⟨(hexacts d hd).1, by have := (hexacts d hd).2; omega⟩
          · intro r hr e he hnr
            rcases Nat.lt_or_eq_of_le (hfirst.name_le_of_isRun hr he hnr) with hlt | heq
            · obtain ⟨d, hd, hname⟩ := hfound r hr e he (hexact.stop_le hr hlt)
              exact ⟨d, List.mem_cons_of_mem c hd, hname⟩
            · exact ⟨c, List.mem_cons_self, hexact.run.eq_of_start hr heq⟩
          · intro d hd
            have hnext := (hexacts d hd).2
            omega

/-- The candidates of a line name exactly its runs with a mark behind them, from left to right. -/
theorem candidates_exact (line : Text) :
    (∀ c ∈ candidates line, c.IsExact line) ∧
    (∀ r : Span, r.IsRun line → ∀ e, r.IsEnded line e → ∃ c ∈ candidates line, c.name = r) ∧
    (candidates line).Pairwise fun c d => c.name.stop ≤ d.name.start := by
  obtain ⟨hexact, hfound, hpairwise⟩ :=
    @candidatesFrom_exact line line.length 0 (Nat.le_add_left _ _) nofun
  exact ⟨fun c hc => (hexact c hc).1, fun r hr e he => hfound r hr e he (Nat.zero_le _), hpairwise⟩

end Classifier

end LineReview
