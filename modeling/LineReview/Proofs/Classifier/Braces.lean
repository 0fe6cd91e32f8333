import LineReview.Proofs.Classifier.Runs
import Mathlib.Order.Bounds.Defs

/-!
# Bodies of braces

The body of a brace goes up to the brace that closes it, or to the end of the line.
`ClosesAt` says by counting which one closes it: up to there no more braces are
closed than opened, and there the numbers agree. `closingOffset` finds this place
(`closesAt_closingOffset`), so `braceBody?` gives the body of the first brace at or
behind an offset (`braceBody?_eq_some`). Counted from the brace itself, it ends at the
first offset where the numbers of opened and closed braces agree (`braces_matched`).

Bodies are nested or lie apart: one that begins inside another ends inside it
(`IsBodyOf.stop_le_of_start_le`). Hence of several braces the first decides, as long
as its body is not over when the others open (`contains_first_iff`).
-/

namespace LineReview

namespace Text

theorem indexOf?_eq_findIdx? (c : UInt8) (t : Text) : indexOf? c t = t.findIdx? (· == c) := by
  induction t with
  | nil => rfl
  | cons b t ih =>
      rw [indexOf?, List.findIdx?_cons, ih]
      by_cases h : b = c
      · rw [if_pos h, if_pos (beq_iff_eq.mpr h)]
      · rw [if_neg h, if_neg (fun hb => h (beq_iff_eq.mp hb))]

theorem indexOf?_eq_none_iff {c : UInt8} {t : Text} : indexOf? c t = none ↔ c ∉ t := by
  rw [indexOf?_eq_findIdx?, List.findIdx?_eq_none_iff]
  constructor
  · intro h hc
    exact absurd (h c hc) (by simp)
  · rintro h b hb
    exact beq_eq_false_iff_ne.mpr (fun hbc => h (hbc ▸ hb))

theorem indexOf?_eq_some_iff {c : UInt8} {t : Text} {i : Nat} :
    indexOf? c t = some i ↔ t[i]? = some c ∧ ∀ j < i, t[j]? ≠ some c := by
  rw [indexOf?_eq_findIdx?, List.findIdx?_eq_some_iff_getElem]
  constructor
  · rintro ⟨hi, hc, hbefore⟩
    refine ⟨?_, ?_⟩
    · rw [List.getElem?_eq_getElem hi, beq_iff_eq.mp hc]
    · intro j hj hjc
      obtain ⟨hlt, hget⟩ := List.getElem?_eq_some_iff.mp hjc
      exact hbefore j hj (beq_iff_eq.mpr hget)
  · rintro ⟨hc, hbefore⟩
    obtain ⟨hi, hget⟩ := List.getElem?_eq_some_iff.mp hc
    refine ⟨hi, beq_iff_eq.mpr hget, ?_⟩
    intro j hj hjc
    apply hbefore j hj
    rw [List.getElem?_eq_getElem (by omega), beq_iff_eq.mp hjc]

theorem count_take_succ {t : Text} {n : Nat} {b : UInt8} (h : t[n]? = some b) (c : UInt8) :
    (t.take (n + 1)).count c = (t.take n).count c + if b = c then 1 else 0 := by
  rw [List.take_add_one, h, Option.toList_some, List.count_append, List.count_singleton]
  simp only [beq_iff_eq]

theorem count_take_add (t : Text) (k i : Nat) (c : UInt8) :
    (t.take (k + i)).count c = (t.take k).count c + ((t.drop k).take i).count c := by
  rw [List.take_add, List.count_append]

end Text

namespace Classifier

/-! ## Where a brace is closed -/

/-- The text goes on inside a brace in which `depth` more are open. It is closed at offset `n`: up
to there no more braces are closed than were opened, and then comes the one too many. If none
comes, `n` is the end of the text. -/
structure ClosesAt (depth : Nat) (t : Text) (n : Nat) : Prop where
  le : n ≤ t.length
  inside : ∀ i ≤ n, (t.take i).count 125 ≤ (t.take i).count 123 + depth
  closed : n < t.length → t[n]? = some 125 ∧ (t.take n).count 125 = (t.take n).count 123 + depth

/-- One byte in front opens a brace, closes one or does neither. -/
theorem ClosesAt.cons {b : UInt8} {t : Text} {n depth depth' : Nat} (h : ClosesAt depth t n)
    (hdepth : depth' + (if b = 123 then 1 else 0) = depth + if b = 125 then 1 else 0) :
    ClosesAt depth' (b :: t) (n + 1) := by
  have hcount : ∀ (i : Nat) (c : UInt8),
      ((b :: t).take (i + 1)).count c = (t.take i).count c + if b = c then 1 else 0 := by
    intro i c
    rw [List.take_succ_cons, List.count_cons]
    simp only [beq_iff_eq]
  refine ⟨Nat.succ_le_succ h.le, ?_, ?_⟩
  · intro i hi
    cases i with
    | zero => exact Nat.zero_le _
    | succ i =>
        have hinside := h.inside i (Nat.le_of_succ_le_succ hi)
        rw [hcount, hcount]
        omega
  · intro hlt
    obtain ⟨hget, hclosed⟩ := h.closed (Nat.lt_of_succ_lt_succ hlt)
    refine ⟨hget, ?_⟩
    rw [hcount, hcount]
    omega

theorem closesAt_closingOffset (depth : Nat) (t : Text) :
    ClosesAt depth t (closingOffset (depth + 1) t) := by
  induction t generalizing depth with
  | nil =>
      refine ⟨Nat.le_refl 0, ?_, fun h => absurd h (Nat.lt_irrefl 0)⟩
      intro i _
      rw [List.take_nil]
      exact Nat.zero_le _
  | cons b t ih =>
      unfold closingOffset
      by_cases hopen : b = 123
      · rw [if_pos hopen]
        exact (ih (depth + 1)).cons (by subst hopen; rfl)
      · rw [if_neg hopen]
        by_cases hclose : b = 125
        · rw [if_pos hclose]
          subst hclose
          cases depth with
          | zero =>
              refine ⟨Nat.zero_le _, ?_, fun _ => ⟨rfl, rfl⟩⟩
              intro i hi
              rw [Nat.le_zero.mp hi]
              exact Nat.zero_le _
          | succ depth => exact (ih depth).cons rfl
        · rw [if_neg hclose]
          exact (ih depth).cons (by rw [if_neg hopen, if_neg hclose])

/-- What begins inside a body is closed inside it. -/
theorem ClosesAt.nested {t : Text} {n k m : Nat} (h : ClosesAt 0 t n) (hk : k ≤ n)
    (hs : ClosesAt 0 (t.drop k) m) : k + m ≤ n := by
  by_contra hover
  have hm := hs.le
  rw [List.length_drop] at hm
  obtain ⟨hget, hclosed⟩ := h.closed (by omega)
  -- behind the closing brace the outer count is one too low, and neither part of it may be
  have hsplit : n + 1 = k + (n + 1 - k) := by omega
  have hclose := Text.count_take_succ hget 125
  have hopen := Text.count_take_succ hget 123
  rw [hsplit, Text.count_take_add] at hclose hopen
  have hfront := h.inside k hk
  have hback := hs.inside (n + 1 - k) (by omega)
  rw [if_pos rfl] at hclose
  rw [if_neg (by decide)] at hopen
  omega

/-! ## Bodies -/

/-- The range is the body of the brace at the offset: it begins behind the brace and ends where
the brace is closed. -/
structure Span.IsBodyOf (r : Span) (brace : Nat) (t : Text) : Prop where
  opened : t[brace]? = some 123
  start_eq : r.start = brace + 1
  le : r.start ≤ r.stop
  closes : ClosesAt 0 (t.drop r.start) (r.stop - r.start)

namespace Span.IsBodyOf

variable {r s : Span} {a b i : Nat} {line : Text}

theorem stop_le_of_start_le (hr : r.IsBodyOf a line) (hs : s.IsBodyOf b line)
    (hlow : r.start ≤ s.start) (hhigh : s.start ≤ r.stop) : s.stop ≤ r.stop := by
  have hdrop : line.drop s.start = (line.drop r.start).drop (s.start - r.start) := by
    rw [List.drop_drop, Nat.add_sub_cancel' hlow]
  have hcloses := hs.closes
  rw [hdrop] at hcloses
  have hnested := hr.closes.nested (by omega) hcloses
  have hle := hs.le
  omega

/-- Of two bodies, the one whose brace comes first holds the other, unless it is over before. -/
theorem contains_of_brace_le (hr : r.IsBodyOf a line) (hs : s.IsBodyOf b line) (hab : a ≤ b)
    (hopen : ¬ r.stop < s.start) (hi : s.contains i = true) : r.contains i = true := by
  rw [Span.contains, Bool.and_eq_true, decide_eq_true_eq, decide_eq_true_eq] at hi ⊢
  have hlow : r.start ≤ s.start := by
    rw [hr.start_eq, hs.start_eq]
    omega
  have hstop := hr.stop_le_of_start_le hs hlow (Nat.le_of_not_lt hopen)
  exact ⟨Nat.le_trans hlow hi.1, Nat.lt_of_lt_of_le hi.2 hstop⟩

end Span.IsBodyOf

/-- The offset of the first opening brace at or behind `start`. -/
structure IsFirstBrace (t : Text) (start brace : Nat) : Prop where
  le : start ≤ brace
  opened : t[brace]? = some 123
  first : ∀ i, start ≤ i → i < brace → t[i]? ≠ some 123

theorem IsFirstBrace.unique {line : Text} {start a b : Nat} (ha : IsFirstBrace line start a)
    (hb : IsFirstBrace line start b) : a = b := by
  rcases Nat.lt_trichotomy a b with hlt | heq | hlt
  · exact absurd ha.opened (hb.first a ha.le hlt)
  · exact heq
  · exact absurd hb.opened (ha.first b hb.le hlt)

theorem braceBody?_eq_some {line : Text} {start : Nat} {body : Span}
    (h : braceBody? line start = some body) :
    ∃ brace, IsFirstBrace line start brace ∧ body.IsBodyOf brace line := by
  obtain ⟨i, hi, rfl⟩ := Option.map_eq_some_iff.mp h
  obtain ⟨hbrace, hbefore⟩ := Text.indexOf?_eq_some_iff.mp hi
  rw [List.getElem?_drop] at hbrace
  refine ⟨start + i, ⟨Nat.le_add_right _ _, hbrace, ?_⟩, ⟨hbrace, rfl, Nat.le_add_right _ _, ?_⟩⟩
  · intro j hlow hhigh
    have hj := hbefore (j - start) (by omega)
    rw [List.getElem?_drop, Nat.add_sub_cancel' hlow] at hj
    exact hj
  · rw [Nat.add_sub_cancel_left]
    exact closesAt_closingOffset 0 _

theorem braceBody?_eq_none {t : Text} {start brace : Nat} (h : braceBody? t start = none)
    (hle : start ≤ brace) : t[brace]? ≠ some 123 := by
  have hmem := Text.indexOf?_eq_none_iff.mp (Option.map_eq_none_iff.mp h)
  intro hbrace
  apply hmem
  apply List.mem_of_getElem? (i := brace - start)
  rw [List.getElem?_drop, Nat.add_sub_cancel' hle, hbrace]

/-- The body of a brace is found from the brace itself. -/
theorem isBodyOf_of_braceBody? {t : Text} {brace : Nat} {body : Span}
    (h : braceBody? t brace = some body) (hbrace : t[brace]? = some 123) :
    body.IsBodyOf brace t := by
  obtain ⟨b, hfirst, hbody⟩ := braceBody?_eq_some h
  have hself : IsFirstBrace t brace brace :=
    ⟨Nat.le_refl _, hbrace, fun i hlow hhigh => absurd hhigh (Nat.not_lt.mpr hlow)⟩
  rwa [hfirst.unique hself] at hbody

/-! ## The first of several bodies -/

/-- The range is the body of one of the braces. -/
def Span.IsBodyIn (r : Span) (braces : Set Nat) (line : Text) : Prop :=
  ∃ b ∈ braces, r.IsBodyOf b line

/-- The range is the body of one of the braces, and begins before any of their bodies is over. -/
structure Span.IsEarlyIn (r : Span) (braces : Set Nat) (line : Text) : Prop where
  body : r.IsBodyIn braces line
  early : ∀ s : Span, s.IsBodyIn braces line → ¬ s.stop < r.start

/-- The body of the first brace holds all bodies that begin before any is over. -/
theorem contains_first_iff {line : Text} {braces : Set Nat} {first : Nat} {body : Span} {i : Nat}
    (hfirst : IsLeast braces first) (hbody : body.IsBodyOf first line) :
    body.contains i = true ↔ ∃ r : Span, r.IsEarlyIn braces line ∧ r.contains i = true := by
  constructor
  · intro hi
    refine ⟨body, ⟨⟨first, hfirst.1, hbody⟩, ?_⟩, hi⟩
    rintro s ⟨b, hb, hs⟩
    have hle := hfirst.2 hb
    have hstart := hbody.start_eq
    have hstart' := hs.start_eq
    have hstop := hs.le
    omega
  · rintro ⟨r, ⟨⟨b, hb, hr⟩, hearly⟩, hi⟩
    exact hbody.contains_of_brace_le hr (hfirst.2 hb) (hearly body ⟨first, hfirst.1, hbody⟩) hi

/-! ## The matching brace -/

/-- The offsets behind a brace up to which, from the brace on, as many braces are closed as
opened. -/
def balancedOffsets (t : Text) (brace : Nat) : Set Nat :=
  {e | brace < e ∧ e < t.length ∧
    (t.slice brace (e + 1)).count 123 = (t.slice brace (e + 1)).count 125}

/-- From an opening brace on, that brace counts beside those behind it. -/
theorem count_slice_of_opened {t : Text} {brace : Nat} (h : t[brace]? = some 123) (k : Nat) :
    (t.slice brace (brace + 1 + k)).count 123 =
      ((t.drop (brace + 1)).take k).count 123 + 1 ∧
    (t.slice brace (brace + 1 + k)).count 125 = ((t.drop (brace + 1)).take k).count 125 := by
  obtain ⟨hlt, hget⟩ := List.getElem?_eq_some_iff.mp h
  have hwidth : brace + 1 + k - brace = k + 1 := by omega
  rw [Text.slice, hwidth, List.drop_eq_getElem_cons hlt, hget, List.take_succ_cons]
  exact ⟨List.count_cons_self, List.count_cons_of_ne (by decide)⟩

namespace Span.IsBodyOf

variable {r : Span} {brace : Nat} {t : Text}

theorem stop_le_length (h : r.IsBodyOf brace t) : r.stop ≤ t.length := by
  have hlt := (List.getElem?_eq_some_iff.mp h.opened).1
  have hle := h.closes.le
  have hstart := h.start_eq
  rw [List.length_drop] at hle
  omega

/-- As long as the body is not over, more braces are opened than closed. -/
theorem count_lt_count (h : r.IsBodyOf brace t) {i : Nat} (hlow : brace ≤ i) (hhigh : i < r.stop) :
    (t.slice brace (i + 1)).count 125 < (t.slice brace (i + 1)).count 123 := by
  have hstart := h.start_eq
  have hi : i + 1 = brace + 1 + (i - brace) := by omega
  have hinside := h.closes.inside (i - brace) (by omega)
  obtain ⟨hopened, hclosed⟩ := count_slice_of_opened h.opened (i - brace)
  rw [hstart] at hinside
  rw [hi, hopened, hclosed]
  omega

/-- A body that is over before the line ends at the brace that closes it. -/
theorem closed_of_lt (h : r.IsBodyOf brace t) (hlt : r.stop < t.length) :
    t[r.stop]? = some 125 ∧ IsLeast (balancedOffsets t brace) r.stop := by
  have hstart := h.start_eq
  have hle := h.le
  obtain ⟨hget, hequal⟩ := h.closes.closed (by rw [List.length_drop]; omega)
  have hclosing := Text.count_take_succ hget 125
  have hopening := Text.count_take_succ hget 123
  rw [if_pos rfl] at hclosing
  rw [if_neg (by decide)] at hopening
  rw [List.getElem?_drop, Nat.add_sub_cancel' hle] at hget
  refine ⟨hget, ⟨by omega, hlt, ?_⟩, ?_⟩
  · have hstop : r.stop + 1 = brace + 1 + (r.stop - r.start + 1) := by omega
    obtain ⟨hopened, hclosed⟩ := count_slice_of_opened h.opened (r.stop - r.start + 1)
    rw [hstop, hopened, hclosed, ← hstart]
    omega
  · rintro e ⟨hlow, -, hbalanced⟩
    by_contra hbefore
    have hmore := h.count_lt_count (Nat.le_of_lt hlow) (Nat.lt_of_not_le hbefore)
    omega

/-- A body that goes up to the end of the line is closed nowhere. -/
theorem notMem_balancedOffsets (h : r.IsBodyOf brace t) (heq : r.stop = t.length) (e : Nat) :
    e ∉ balancedOffsets t brace := by
  rintro ⟨hlow, hlt, hbalanced⟩
  have hmore := h.count_lt_count (Nat.le_of_lt hlow) (heq ▸ hlt)
  omega

end Span.IsBodyOf

/-- There is no body exactly when no brace is opened at or behind `start`. Otherwise the body of the
first such brace begins right behind it. It ends at the first offset up to which as many braces are
closed as opened, where a closing brace stands, and up to any offset before more are opened; or, if
there is no such offset, at the end of the line. -/
theorem braces_matched (t : Text) (start : Nat) :
    (braceBody? t start = none ↔ ∀ i, start ≤ i → t[i]? ≠ some 123) ∧
    ∀ brace, IsFirstBrace t start brace → ∃ stop,
      braceBody? t start = some ⟨brace + 1, stop⟩ ∧
      brace + 1 ≤ stop ∧ stop ≤ t.length ∧
      ((IsLeast (balancedOffsets t brace) stop ∧ t[stop]? = some 125 ∧
          ∀ i, brace ≤ i → i < stop →
            (t.slice brace (i + 1)).count 125 < (t.slice brace (i + 1)).count 123) ∨
        (∀ e, e ∉ balancedOffsets t brace) ∧ stop = t.length) := by
  cases hfound : braceBody? t start with
  | none =>
      have habsent : ∀ i, start ≤ i → t[i]? ≠ some 123 :=
        fun i hle => braceBody?_eq_none hfound hle
      refine ⟨iff_of_true rfl habsent, ?_⟩
      intro brace hfirst
      exact absurd hfirst.opened (habsent brace hfirst.le)
  | some body =>
      obtain ⟨first, hfirst, hbody⟩ := braceBody?_eq_some hfound
      have hpresent : ¬ ∀ i, start ≤ i → t[i]? ≠ some 123 :=
        fun h => h first hfirst.le hfirst.opened
      refine ⟨iff_of_false nofun hpresent, ?_⟩
      intro brace hbrace
      obtain rfl := hfirst.unique hbrace
      have hle := hbody.stop_le_length
      refine ⟨body.stop, ?_, hbody.start_eq ▸ hbody.le, hle, ?_⟩
      · rw [← hbody.start_eq]
      · rcases Nat.lt_or_eq_of_le hle with hlt | heq
        · obtain ⟨hclosing, hleast⟩ := hbody.closed_of_lt hlt
          exact .inl ⟨hleast, hclosing, fun i hlow hhigh => hbody.count_lt_count hlow hhigh⟩
        · exact .inr ⟨hbody.notMem_balancedOffsets heq, heq⟩

/-- The body of `}{a{b}c}d`, with braces in it and beside it, and that of `{a{b}`, which is not
closed. -/
theorem braces_matched_nested :
    let line := bytes "\x7d\x7ba\x7bb\x7dc\x7dd"
    let unclosed := bytes "\x7ba\x7bb\x7d"
    IsFirstBrace line 0 1 ∧ IsLeast (balancedOffsets line 1) 7 ∧
    braceBody? line 0 = some ⟨2, 7⟩ ∧
    IsFirstBrace unclosed 0 0 ∧ (∀ e, e ∉ balancedOffsets unclosed 0) ∧
    braceBody? unclosed 0 = some ⟨1, 5⟩ := by
  intro line unclosed
  have hline : braceBody? line 0 = some ⟨2, 7⟩ := by decide +kernel
  have hunclosed : braceBody? unclosed 0 = some ⟨1, 5⟩ := by decide +kernel
  have hfirst : IsFirstBrace line 0 1 := by
    refine ⟨Nat.zero_le _, by decide +kernel, ?_⟩
    intro i _ hi
    rw [Nat.lt_one_iff.mp hi]
    decide +kernel
  have hfirst' : IsFirstBrace unclosed 0 0 :=
    ⟨Nat.le_refl _, by decide +kernel, fun i _ hi => absurd hi (Nat.not_lt_zero i)⟩
  obtain ⟨stop, hbody, -, -, hend⟩ := (braces_matched line 0).2 1 hfirst
  obtain ⟨stop', hbody', -, -, hend'⟩ := (braces_matched unclosed 0).2 0 hfirst'
  rw [hline] at hbody
  rw [hunclosed] at hbody'
  cases hbody
  cases hbody'
  have hlength : line.length = 9 := by decide +kernel
  have hget : unclosed[5]? = none := by decide +kernel
  refine ⟨hfirst, ?_, hline, hfirst', ?_, hunclosed⟩
  · rcases hend with ⟨hleast, -⟩ | ⟨-, heq⟩
    · exact hleast
    · rw [hlength] at heq
      cases heq
  · rcases hend' with ⟨-, hclosing, -⟩ | ⟨hnone, -⟩
    · rw [hget] at hclosing
      cases hclosing
    · exact hnone

end Classifier

end LineReview
