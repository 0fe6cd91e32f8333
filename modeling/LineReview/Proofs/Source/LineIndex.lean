import LineReview.Source.File
import LineReview.Proofs.FileSystem.Names
import Mathlib.Algebra.Group.Nat.Defs

/-!
# Lines and the line index

The lines of a file are the parts of its content between line feeds. The line
index gives them as well, as slices between neighbouring offsets
(`slice_eq_part`); the two ways agree on the number of lines
(`lineCount_eq_length`) and on each of them (`line_eq`), as long as every offset
fits into 32 bits.
-/

namespace LineReview

namespace SourceFile

/-! ## Offsets of line feeds -/

/-- The offsets of the line feeds, not yet cut to 32 bits. -/
def feedOffsets (offset : Nat) : Text → List Nat
  | [] => []
  | b :: t =>
    if b = 10 then offset :: feedOffsets (offset + 1) t else feedOffsets (offset + 1) t

theorem lineFeeds_eq_map (offset : Nat) (t : Text) :
    lineFeeds offset t = (feedOffsets offset t).map Nat.toUInt32 := by
  induction t generalizing offset with
  | nil => rfl
  | cons b t ih =>
      rw [lineFeeds, feedOffsets, ih]
      split <;> rfl

theorem bounds_of_mem_feedOffsets {offset i : Nat} {t : Text} (h : i ∈ feedOffsets offset t) :
    offset ≤ i ∧ i < offset + t.length := by
  induction t generalizing offset with
  | nil => cases h
  | cons b t ih =>
      rw [List.length_cons]
      rw [feedOffsets] at h
      split at h
      · rcases List.mem_cons.mp h with rfl | h
        · omega
        · have := ih h
          omega
      · have := ih h
        omega

theorem length_splitOn (offset : Nat) (t : Text) :
    (Text.splitOn 10 t).length = (feedOffsets offset t).length + 1 := by
  induction t generalizing offset with
  | nil => rfl
  | cons b t ih =>
      have ih := ih (offset + 1)
      rw [Text.splitOn, feedOffsets]
      by_cases hb : b = 10
      · rw [if_pos hb, if_pos hb, List.length_cons, List.length_cons, ih]
      · rw [if_neg hb, if_neg hb]
        cases hsplit : Text.splitOn 10 t with
        | nil => exact absurd hsplit (Text.splitOn_ne_nil 10 t)
        | cons p ps =>
            rw [hsplit] at ih
            exact ih

/-- Where the part with a given index begins and where it stops. -/
def partStart (offset : Nat) (t : Text) (k : Nat) : Nat :=
  if k = 0 then offset else (feedOffsets offset t).getD (k - 1) 0 + 1

def partStop (offset : Nat) (t : Text) (k : Nat) : Nat :=
  (feedOffsets offset t)[k]?.getD (offset + t.length)

theorem slice_at_front (front t : Text) (b : UInt8) {j : Nat} (hj : front.length < j) :
    (front ++ b :: t).slice front.length j =
      b :: (front ++ b :: t).slice (front.length + 1) j := by
  have hsplit : front ++ b :: t = (front ++ [b]) ++ t := by simp
  have hlength : (front ++ [b]).length = front.length + 1 := by simp
  have htake : j - front.length = (j - (front.length + 1)) + 1 := by omega
  have hrest : (front ++ b :: t).drop (front.length + 1) = t := by
    rw [hsplit, ← hlength, List.drop_left]
  rw [Text.slice, Text.slice, hrest, List.drop_left, htake, List.take_succ_cons]

theorem lt_partStop (offset : Nat) (b : UInt8) (t : Text) (hb : b ≠ 10) (k : Nat) :
    offset < partStop offset (b :: t) k := by
  rw [partStop, feedOffsets, if_neg hb]
  cases hk : (feedOffsets (offset + 1) t)[k]? with
  | none =>
      rw [Option.getD_none, List.length_cons]
      omega
  | some i =>
      have := bounds_of_mem_feedOffsets (List.mem_of_getElem? hk)
      rw [Option.getD_some]
      omega

theorem partStart_of_feed (offset : Nat) (t : Text) (k : Nat) :
    partStart offset (10 :: t) (k + 1) = partStart (offset + 1) t k := by
  rw [partStart, partStart, feedOffsets, if_pos rfl]
  cases k <;> rfl

theorem partStop_of_feed (offset : Nat) (t : Text) (k : Nat) :
    partStop offset (10 :: t) (k + 1) = partStop (offset + 1) t k := by
  rw [partStop, partStop, feedOffsets, if_pos rfl, List.length_cons, Nat.add_right_comm,
    Nat.add_assoc]
  rfl

theorem partStart_of_ne {b : UInt8} (hb : b ≠ 10) (offset : Nat) (t : Text) (k : Nat) :
    partStart offset (b :: t) (k + 1) = partStart (offset + 1) t (k + 1) := by
  rw [partStart, partStart, feedOffsets, if_neg hb]
  rfl

theorem partStop_of_ne {b : UInt8} (hb : b ≠ 10) (offset : Nat) (t : Text) (k : Nat) :
    partStop offset (b :: t) k = partStop (offset + 1) t k := by
  rw [partStop, partStop, feedOffsets, if_neg hb, List.length_cons, Nat.add_right_comm,
    Nat.add_assoc]

/-- The parts between line feeds are the slices between their offsets. The part of the text that is
already behind stays in `front`, so that offsets count from the beginning. -/
theorem slice_eq_part (front : Text) {t l : Text} {k : Nat}
    (h : (Text.splitOn 10 t)[k]? = some l) :
    (front ++ t).slice (partStart front.length t k) (partStop front.length t k) = l := by
  induction t generalizing front k l with
  | nil =>
      cases k with
      | zero =>
          cases h
          simp [Text.slice, partStart, partStop, feedOffsets]
      | succ k => cases h
  | cons b t ih =>
      have hfront : front ++ b :: t = (front ++ [b]) ++ t := by simp
      have hlength : (front ++ [b]).length = front.length + 1 := by simp
      have ih := @ih (front ++ [b])
      rw [hlength, ← hfront] at ih
      rw [Text.splitOn] at h
      by_cases hb : b = 10
      · subst hb
        rw [if_pos rfl] at h
        cases k with
        | zero =>
            cases h
            simp [Text.slice, partStart, partStop, feedOffsets]
        | succ k =>
            rw [partStart_of_feed, partStop_of_feed]
            exact ih h
      · rw [if_neg hb] at h
        rw [partStop_of_ne hb]
        cases hsplit : Text.splitOn 10 t with
        | nil => exact absurd hsplit (Text.splitOn_ne_nil 10 t)
        | cons p ps =>
            rw [hsplit] at h ih
            cases k with
            | zero =>
                cases h
                have hpart := ih (k := 0) (l := p) rfl
                have hlt := lt_partStop front.length b t hb 0
                rw [partStop_of_ne hb] at hlt
                change (front ++ b :: t).slice front.length _ = b :: p
                rw [slice_at_front front t b hlt]
                exact congrArg (b :: ·) hpart
            | succ k =>
                rw [partStart_of_ne hb]
                exact ih h

/-! ## Number of lines -/

theorem parts_eq_concat (content : Text) :
    ∃ init last, Text.splitOn 10 content = init ++ [last] ∧ 10 ∉ last := by
  have hne := Text.splitOn_ne_nil 10 content
  refine ⟨_, _, (List.dropLast_append_getLast hne).symm, ?_⟩
  exact Text.notMem_of_mem_splitOn (List.getLast_mem hne)

/-- The last part is empty when the content is, or when it ends in a line feed. -/
theorem last_part_eq_nil_iff {content last : Text} {init : List Text}
    (hsplit : Text.splitOn 10 content = init ++ [last]) (hlast : 10 ∉ last) :
    last = [] ↔ content = [] ∨ content.getLast? = some 10 := by
  have hjoin := Text.joinWith_splitOn 10 content
  rw [hsplit] at hjoin
  by_cases hinit : init = []
  · subst hinit
    change last = content at hjoin
    subst hjoin
    refine ⟨.inl, fun h => h.resolve_right fun hfeed => hlast (List.mem_of_getLast? hfeed)⟩
  · rw [Text.joinWith_concat last hinit] at hjoin
    have hne : content ≠ [] := by
      rw [← hjoin]
      simp
    rw [← hjoin]
    constructor
    · rintro rfl
      right
      simp
    · rintro (h | h)
      · exact absurd (hjoin ▸ h) hne
      · by_contra hlast_ne
        rw [List.getLast?_append_of_ne_nil _ hlast_ne] at h
        exact hlast (List.mem_of_getLast? h)

theorem splitLines_of_concat {content last : Text} {init : List Text}
    (hsplit : Text.splitOn 10 content = init ++ [last]) :
    splitLines content = if last = [] then init else init ++ [last] := by
  unfold splitLines
  dsimp only
  rw [hsplit, List.getLast?_concat, List.dropLast_concat]
  by_cases hlast : last = []
  · rw [if_pos hlast, if_pos (congrArg some hlast)]
  · rw [if_neg hlast, if_neg fun h => hlast (Option.some.inj h)]

theorem getElem?_parts_of_splitLines {content l : Text} {k : Nat}
    (h : (splitLines content)[k]? = some l) : (Text.splitOn 10 content)[k]? = some l := by
  obtain ⟨init, last, hsplit, _⟩ := parts_eq_concat content
  rw [splitLines_of_concat hsplit] at h
  rw [hsplit]
  split at h
  · rw [List.getElem?_append_left (List.getElem?_eq_some_iff.mp h).1]
    exact h
  · exact h

/-! ## Files with an index -/

/-- The index of a file belongs to its content, and offsets into the content are 32-bit numbers. -/
structure Indexed (f : SourceFile) : Prop where
  index : f.lineIndex = (lineFeeds 0 f.content).toArray
  short : f.content.length < 2 ^ 32 - 1

theorem Indexed.size {f : SourceFile} (h : f.Indexed) :
    f.lineIndex.size + 1 = (Text.splitOn 10 f.content).length := by
  rw [h.index, List.size_toArray, lineFeeds_eq_map, List.length_map, ← length_splitOn]

theorem Indexed.getElem? {f : SourceFile} (h : f.Indexed) (k : Nat) :
    (f.lineIndex[k]?).map UInt32.toNat = (feedOffsets 0 f.content)[k]? := by
  have hshort := h.short
  rw [h.index, List.getElem?_toArray, lineFeeds_eq_map, List.getElem?_map, Option.map_map]
  cases hk : (feedOffsets 0 f.content)[k]? with
  | none => rfl
  | some i =>
      have hi := (bounds_of_mem_feedOffsets (List.mem_of_getElem? hk)).2
      rw [Option.map_some, Function.comp_apply, UInt32.toNat_ofNat_of_lt']
      change i < 2 ^ 32
      omega

theorem Indexed.lineCount_eq_length {f : SourceFile} (h : f.Indexed) :
    f.lineCount = (splitLines f.content).length := by
  obtain ⟨init, last, hsplit, hlast⟩ := parts_eq_concat f.content
  have hsize := h.size
  rw [hsplit, List.length_append, List.length_singleton] at hsize
  have hnil := last_part_eq_nil_iff hsplit hlast
  rw [splitLines_of_concat hsplit, lineCount]
  cases hend : f.content.getLast? with
  | none =>
      have hempty := List.getLast?_eq_none_iff.mp hend
      rw [if_pos (hnil.mpr (.inl hempty))]
      rw [hempty] at hsplit
      have hlength := congrArg List.length hsplit
      rw [Text.splitOn, List.length_append, List.length_singleton, List.length_singleton] at hlength
      dsimp only
      omega
  | some b =>
      have hne : f.content ≠ [] := by
        intro hempty
        rw [hempty] at hend
        cases hend
      rw [hend] at hnil
      dsimp only
      by_cases hb : b = 10
      · rw [if_pos hb, if_pos (hnil.mpr (.inr (congrArg some hb)))]
        omega
      · have hfull : last ≠ [] := by
          intro h
          rcases hnil.mp h with h | h
          · exact hne h
          · exact hb (Option.some.inj h)
        rw [if_neg hb, if_neg hfull, List.length_append, List.length_singleton]
        omega

/-- The index finds every line. -/
theorem Indexed.line_eq {f : SourceFile} (h : f.Indexed) {k : Nat} {l : Text}
    (hl : (splitLines f.content)[k]? = some l) : f.line (k + 1) = l := by
  have hk := (List.getElem?_eq_some_iff.mp hl).1
  have hcount := h.lineCount_eq_length
  have hpart := slice_eq_part [] (getElem?_parts_of_splitLines hl)
  rw [List.nil_append, List.length_nil] at hpart
  have hinside : (decide (k + 1 = 0) || decide (f.lineCount < k + 1)) = false := by
    rw [decide_eq_false (Nat.succ_ne_zero k), decide_eq_false (by omega), Bool.or_false]
  have hstart : (if k + 1 = 1 then 0 else (f.lineIndex.getD (k + 1 - 2) 0).toNat + 1) =
      partStart 0 f.content k := by
    rw [partStart]
    cases k with
    | zero => rfl
    | succ k =>
        have hget := h.getElem? k
        change (f.lineIndex.getD k 0).toNat + 1 = (feedOffsets 0 f.content).getD k 0 + 1
        rw [Array.getD_eq_getD_getElem?, List.getD_eq_getElem?_getD, ← hget]
        cases f.lineIndex[k]? <;> rfl
  have hstop := h.getElem? k
  rw [partStop, ← hstop, Nat.zero_add] at hpart
  rw [line, hinside, if_neg Bool.false_ne_true, Nat.add_sub_cancel]
  dsimp only
  rw [hstart]
  cases hfeed : f.lineIndex[k]? with
  | none =>
      rw [hfeed] at hpart
      exact hpart
  | some i =>
      rw [hfeed] at hpart
      exact hpart

theorem length_le_of_mem_splitLines {content l : Text} (h : l ∈ splitLines content) :
    l.length ≤ content.length := by
  obtain ⟨k, hk⟩ := List.mem_iff_getElem?.mp h
  have hpart := slice_eq_part [] (getElem?_parts_of_splitLines hk)
  rw [List.nil_append, Text.slice] at hpart
  rw [← hpart, List.length_take, List.length_drop]
  omega

theorem length_feedOffsets (offset : Nat) (t : Text) :
    (feedOffsets offset t).length = t.count 10 := by
  induction t generalizing offset with
  | nil => rfl
  | cons b t ih =>
      rw [feedOffsets, List.count_cons]
      by_cases hb : b = 10
      · rw [if_pos hb, List.length_cons, ih, if_pos (beq_iff_eq.mpr hb)]
      · rw [if_neg hb, ih, if_neg fun h => hb (beq_iff_eq.mp h), Nat.add_zero]

/-- Every line takes at least one byte: its line feed, or a byte of its own if it is the last line
and has none. -/
theorem length_splitLines_le (content : Text) :
    (splitLines content).length ≤ content.length := by
  obtain ⟨init, last, hsplit, hfeed⟩ := parts_eq_concat content
  have hlength := congrArg List.length hsplit
  have hcount : content.count 10 ≤ content.length := List.count_le_length
  rw [length_splitOn 0, length_feedOffsets, List.length_append, List.length_singleton] at hlength
  rw [splitLines_of_concat hsplit]
  split
  · omega
  · rename_i hlast
    have hne : content.count 10 ≠ content.length := by
      intro hall
      refine hlast ((last_part_eq_nil_iff hsplit hfeed).mpr ?_)
      cases hend : content.getLast? with
      | none => exact .inl (List.getLast?_eq_none_iff.mp hend)
      | some b => exact .inr (congrArg some
          (List.count_eq_length.mp hall b (List.mem_of_getLast? hend)).symm)
    rw [List.length_append, List.length_singleton]
    omega

/-! ## Files made from bytes -/

theorem length_removeReturns_le (t : Text) : (removeReturns t).length ≤ t.length := by
  fun_induction removeReturns t with
  | case1 => exact Nat.le_refl 0
  | case2 t ih =>
      simp only [List.length_cons]
      omega
  | case3 b t _ ih =>
      simp only [List.length_cons]
      omega

theorem length_removeMark_le (t : Text) : (removeMark t).1.length ≤ t.length := by
  unfold removeMark
  split
  · simp only [List.length_cons]
    omega
  · exact Nat.le_refl _

theorem length_normalise_le (content : Text) :
    (normalise content).1.length ≤ content.length :=
  Nat.le_trans (length_removeReturns_le _) (length_removeMark_le content)

theorem indexed_ofBytes (name : Text) {content : Text} (h : content.length < 2 ^ 32 - 1) :
    (ofBytes name content).Indexed :=
  ⟨rfl, Nat.lt_of_le_of_lt (length_normalise_le content) h⟩

theorem indexed_ofDisk (path : Text) {content : Text} (h : content.length < 2 ^ 32 - 1) :
    (ofDisk path content).Indexed :=
  ⟨rfl, Nat.lt_of_le_of_lt (length_normalise_le content) h⟩

/-! ## Numbers of lines -/

theorem next_add_ofNat (n : UInt32) (k : Nat) :
    n + 1 + UInt32.ofNat k = n + UInt32.ofNat (k + 1) := by
  rw [UInt32.ofNat_add, UInt32.add_assoc, UInt32.add_comm 1]
  rfl

/-- Lines after others are numbered on from them. -/
theorem number_append (n : UInt32) (a b : List Text) :
    number n (a ++ b) = number n a ++ number (n + UInt32.ofNat a.length) b := by
  induction a generalizing n with
  | nil => simp [number]
  | cons l ls ih =>
      rw [List.cons_append, number, number, ih, next_add_ofNat, List.length_cons]
      rfl

theorem getElem?_number (n : UInt32) (ls : List Text) (k : Nat) :
    (number n ls)[k]? = ls[k]?.map fun l => (n + UInt32.ofNat k, l) := by
  induction ls generalizing n k with
  | nil => rfl
  | cons l ls ih =>
      cases k with
      | zero => simp [number]
      | succ k => rw [number, List.getElem?_cons_succ, List.getElem?_cons_succ, ih, next_add_ofNat]

/-- Lines are numbered one after the other; the numbers do not run over. -/
theorem Indexed.getElem?_lines {f : SourceFile} (h : f.Indexed) {k : Nat} {n : UInt32} {l : Text}
    (hk : f.lines[k]? = some (n, l)) :
    (splitLines f.content)[k]? = some l ∧ n.toNat = k + 1 := by
  have hshort := h.short
  rw [lines, getElem?_number] at hk
  obtain ⟨l', hl', heq⟩ := Option.map_eq_some_iff.mp hk
  obtain ⟨rfl, rfl⟩ := Prod.mk.inj heq
  have hlt := (List.getElem?_eq_some_iff.mp hl').1
  have hcount := length_splitLines_le f.content
  refine ⟨hl', ?_⟩
  rw [UInt32.toNat_add, UInt32.toNat_ofNat_of_lt' (by change k < 2 ^ 32; omega)]
  change (1 + k) % 2 ^ 32 = k + 1
  omega

/-- Every numbered line is the one that the index finds under its number. -/
theorem Indexed.of_mem_lines {f : SourceFile} (h : f.Indexed) {n : UInt32} {l : Text}
    (hmem : (n, l) ∈ f.lines) :
    1 ≤ n.toNat ∧ n.toNat ≤ f.lineCount ∧ f.line n.toNat = l ∧ l.length < 2 ^ 32 - 1 := by
  have hshort := h.short
  obtain ⟨k, hk⟩ := List.mem_iff_getElem?.mp hmem
  obtain ⟨hl, hnumber⟩ := h.getElem?_lines hk
  have hlt := (List.getElem?_eq_some_iff.mp hl).1
  have hlength := length_le_of_mem_splitLines (List.mem_of_getElem? hl)
  rw [hnumber, h.lineCount_eq_length]
  exact ⟨by omega, hlt, h.line_eq hl, by omega⟩

theorem Indexed.pairwise_lines {f : SourceFile} (h : f.Indexed) :
    f.lines.Pairwise fun a b => a.1.toNat ≤ b.1.toNat := by
  rw [List.pairwise_iff_getElem]
  intro i j hi hj hij
  have hi' : f.lines[i].1.toNat = i + 1 := (h.getElem?_lines (List.getElem?_eq_getElem hi)).2
  have hj' : f.lines[j].1.toNat = j + 1 := (h.getElem?_lines (List.getElem?_eq_getElem hj)).2
  omega

end SourceFile

end LineReview
