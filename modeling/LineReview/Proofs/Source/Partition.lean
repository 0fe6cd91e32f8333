import LineReview.Source.FileSet
import LineReview.Source.Reading
import LineReview.Proofs.Source.LineIndex

/-!
# Lines as a partition of the content

The lines of a file are its content, cut at the line feeds: they are numbered
without gaps, none of them holds a line feed, and joining them gives the content
back (`join_lines`). The line that the index finds under a number is the line
with that number.

Reading by numbers can go out of range, or not come to an end. For a content of
fewer than 2³² - 1 bytes neither happens (`Indexed.readLine?_eq`,
`Indexed.readLines?_eq`).
-/

namespace LineReview

namespace SourceFile

/-! ## Nothing is out of range -/

theorem partStart_le_partStop {offset : Nat} {t : Text} {k : Nat}
    (h : k ≤ (feedOffsets offset t).length) :
    partStart offset t k ≤ partStop offset t k ∧ partStop offset t k ≤ offset + t.length := by
  induction t generalizing offset k with
  | nil =>
      obtain rfl : k = 0 := Nat.le_zero.mp h
      exact ⟨Nat.le_refl offset, Nat.le_refl offset⟩
  | cons b t ih =>
      rw [List.length_cons]
      by_cases hb : b = 10
      · subst hb
        rw [feedOffsets, if_pos rfl, List.length_cons] at h
        cases k with
        | zero => exact ⟨Nat.le_refl offset, Nat.le_add_right offset _⟩
        | succ k =>
            rw [partStart_of_feed, partStop_of_feed]
            have hrest := @ih (offset + 1) k (Nat.le_of_succ_le_succ h)
            omega
      · rw [feedOffsets, if_neg hb] at h
        have hrest := @ih (offset + 1) k h
        have hlt := lt_partStop offset b t hb k
        rw [partStop_of_ne hb] at hlt ⊢
        cases k with
        | zero =>
            change offset ≤ _ ∧ _
            omega
        | succ k =>
            rw [partStart_of_ne hb]
            omega

theorem line_outside {f : SourceFile} {n : Nat} (h : n = 0 ∨ f.lineCount < n) : f.line n = [] := by
  refine if_pos ?_
  rw [Bool.or_eq_true, decide_eq_true_eq, decide_eq_true_eq]
  exact h

theorem lineCount_le_size (f : SourceFile) : f.lineCount ≤ f.lineIndex.size + 1 := by
  rw [lineCount]
  split
  · exact Nat.zero_le _
  · split <;> omega

namespace Indexed

variable {f : SourceFile}

theorem lineCount_le (h : f.Indexed) : f.lineCount ≤ f.content.length := by
  rw [h.lineCount_eq_length]
  exact length_splitLines_le f.content

theorem size_eq_count (h : f.Indexed) : f.lineIndex.size = f.content.count 10 := by
  rw [h.index, List.size_toArray, lineFeeds_eq_map, List.length_map, length_feedOffsets]

theorem lineCount_eq_zero_iff (h : f.Indexed) : f.lineCount = 0 ↔ f.content = [] := by
  have hsize := h.size_eq_count
  rw [lineCount]
  cases hend : f.content.getLast? with
  | none => exact ⟨fun _ => List.getLast?_eq_none_iff.mp hend, fun _ => rfl⟩
  | some b =>
      have hne : f.content ≠ [] := by
        intro hempty
        rw [hempty] at hend
        cases hend
      dsimp only
      split
      · rename_i hb
        have hpos : 0 < f.content.count 10 :=
          List.count_pos_iff.mpr (hb ▸ List.mem_of_getLast? hend)
        exact ⟨fun hzero => absurd hzero (by omega), fun hempty => absurd hempty hne⟩
      · exact ⟨fun hzero => absurd hzero (Nat.succ_ne_zero _), fun hempty => absurd hempty hne⟩

theorem count?_eq (h : f.Indexed) : f.count? = some f.lineCount.toUInt32 := by
  have hshort := h.short
  have hsize : f.lineIndex.size < UInt32.size := by
    rw [h.size_eq_count]
    exact Nat.lt_of_le_of_lt List.count_le_length (Nat.lt_of_lt_of_le hshort (Nat.sub_le _ 1))
  rw [count?, if_pos hsize, lineCount]
  cases f.content.getLast? with
  | none => rfl
  | some b =>
      dsimp only
      split
      · rfl
      · exact congrArg some (UInt32.ofNat_add _ 1).symm

theorem toNat_count (h : f.Indexed) : f.lineCount.toUInt32.toNat = f.lineCount := by
  have hshort := h.short
  have hcount := h.lineCount_le
  exact UInt32.toNat_ofNat_of_lt' (by change f.lineCount < 2 ^ 32; omega)

/-- A line begins behind the line feed that the index has for the line before it. -/
theorem lineStart?_eq (h : f.Indexed) {n : UInt32} (hle : n.toNat ≤ f.lineCount) :
    ∃ start, f.lineStart? n = some start ∧ start.toNat = partStart 0 f.content (n.toNat - 1) := by
  have hshort := h.short
  have hsize := f.lineCount_le_size
  unfold lineStart?
  by_cases hfirst : 1 < n
  · have hlt : 1 < n.toNat := UInt32.lt_iff_toNat_lt.mp hfirst
    have hindex : (n - 2).toNat = n.toNat - 2 := by
      rw [UInt32.toNat_sub_of_le n 2 (UInt32.le_iff_toNat_le.mpr hlt)]
      rfl
    have hfeed := h.getElem? (n.toNat - 2)
    have hin : f.lineIndex[n.toNat - 2]? = some f.lineIndex[n.toNat - 2] :=
      Array.getElem?_eq_getElem (by omega)
    rw [hin, Option.map_some] at hfeed
    have hbound := (bounds_of_mem_feedOffsets (List.mem_of_getElem? hfeed.symm)).2
    rw [if_pos hfirst, hindex, hin, Option.map_some]
    refine ⟨_, rfl, ?_⟩
    rw [partStart, if_neg (by omega), List.getD_eq_getElem?_getD, Nat.sub_sub, ← hfeed,
      Option.getD_some, UInt32.toNat_add]
    change (_ + 1) % 2 ^ 32 = _
    omega
  · have hone : n.toNat - 1 = 0 := by
      have := UInt32.not_lt.mp hfirst
      have : n.toNat ≤ 1 := UInt32.le_iff_toNat_le.mp this
      omega
    rw [if_neg hfirst, hone]
    exact ⟨0, rfl, rfl⟩

theorem toNat_lineStop (h : f.Indexed) {n : UInt32} (hpos : n ≠ 0) :
    (f.lineStop n).toNat = partStop 0 f.content (n.toNat - 1) := by
  have hshort := h.short
  have hone : 1 ≤ n := by
    refine UInt32.le_iff_toNat_le.mpr (Nat.pos_of_ne_zero fun hzero => hpos ?_)
    exact UInt32.toNat_inj.mp hzero
  have hindex : (n - 1).toNat = n.toNat - 1 := UInt32.toNat_sub_of_le n 1 hone
  have hfeed := h.getElem? (n.toNat - 1)
  rw [lineStop, partStop, hindex, ← hfeed, Nat.zero_add]
  cases f.lineIndex[n.toNat - 1]? with
  | none => exact UInt32.toNat_ofNat_of_lt' (by change f.content.length < 2 ^ 32; omega)
  | some i => rfl

/-- Reading a line is never out of range, and it gives the line. -/
theorem readLine?_eq (h : f.Indexed) (n : UInt32) : f.readLine? n = some (f.line n.toNat) := by
  rw [readLine?, h.count?_eq, Option.bind_some]
  have hover : f.lineCount.toUInt32 < n ↔ f.lineCount < n.toNat := by
    rw [UInt32.lt_iff_toNat_lt, h.toNat_count]
  by_cases hout : n = 0 ∨ f.lineCount.toUInt32 < n
  · rw [if_pos hout, line_outside]
    exact hout.imp (congrArg UInt32.toNat) hover.mp
  · obtain ⟨hpos, hle⟩ := not_or.mp hout
    rw [hover, Nat.not_lt] at hle
    obtain ⟨k, hk⟩ : ∃ k, n.toNat = k + 1 :=
      Nat.exists_eq_succ_of_ne_zero fun hzero => hpos (UInt32.toNat_inj.mp hzero)
    obtain ⟨start, hstart, hfrom⟩ := h.lineStart?_eq hle
    have hto := h.toNat_lineStop hpos
    rw [hk, Nat.add_sub_cancel] at hfrom hto
    have hcount := h.lineCount_eq_length
    have hl : (splitLines f.content)[k]? = some (splitLines f.content)[k] :=
      List.getElem?_eq_getElem (by omega)
    have hparts : k ≤ (feedOffsets 0 f.content).length := by
      have hlength := (List.getElem?_eq_some_iff.mp (getElem?_parts_of_splitLines hl)).1
      rw [length_splitOn 0] at hlength
      omega
    obtain ⟨hordered, hinside⟩ := partStart_le_partStop hparts
    have hslice := slice_eq_part [] (getElem?_parts_of_splitLines hl)
    rw [List.nil_append, List.length_nil] at hslice
    have hrange : start ≤ f.lineStop n ∧ (f.lineStop n).toNat ≤ f.content.length := by
      rw [UInt32.le_iff_toNat_le, hfrom, hto]
      omega
    rw [if_neg hout, hstart, Option.bind_some, slice?, if_pos hrange, hfrom, hto, hslice, hk,
      h.line_eq hl]

theorem toNat_number (h : f.Indexed) {k : Nat} (hk : k ≤ f.lineCount) :
    (UInt32.ofNat (k + 1)).toNat = k + 1 := by
  have hshort := h.short
  have hbound := h.lineCount_le
  exact UInt32.toNat_ofNat_of_lt' (by change k + 1 < 2 ^ 32; omega)

/-- The number after the last line is still a 32-bit number, so counting stops there. -/
theorem number_le_count_iff (h : f.Indexed) {k : Nat} (hk : k ≤ f.lineCount) :
    UInt32.ofNat (k + 1) ≤ f.lineCount.toUInt32 ↔ k < (splitLines f.content).length := by
  rw [UInt32.le_iff_toNat_le, h.toNat_number hk, h.toNat_count, h.lineCount_eq_length,
    Nat.succ_le_iff]

theorem readLine?_number (h : f.Indexed) {k : Nat} (hk : k < (splitLines f.content).length) :
    f.readLine? (UInt32.ofNat (k + 1)) = some (splitLines f.content)[k] := by
  rw [h.readLine?_eq, h.toNat_number (h.lineCount_eq_length ▸ Nat.le_of_lt hk),
    h.line_eq (List.getElem?_eq_getElem hk)]

/-- Reading all lines comes to an end before the numbers run over, and it gives the lines. The
induction is on the rounds that are left, with `k` lines already read. -/
theorem readLines?_eq (h : f.Indexed) {fuel k : Nat} (hk : k ≤ f.lineCount)
    (hfuel : f.lineCount < fuel + k) :
    f.readLines? fuel (UInt32.ofNat (k + 1)) =
      some (number (UInt32.ofNat (k + 1)) ((splitLines f.content).drop k)) := by
  have hcount := h.lineCount_eq_length
  induction fuel generalizing k with
  | zero => omega
  | succ fuel ih =>
      have hmore_iff := h.number_le_count_iff hk
      rw [readLines?, h.count?_eq, Option.bind_some]
      by_cases hmore : k < (splitLines f.content).length
      · have hnext : UInt32.ofNat (k + 1) + 1 = UInt32.ofNat (k + 1 + 1) :=
          (UInt32.ofNat_add (k + 1) 1).symm
        rw [if_pos (hmore_iff.mpr hmore), h.readLine?_number hmore, Option.bind_some, hnext,
          ih (by omega) (by omega), List.drop_eq_getElem_cons hmore, number, hnext]
        rfl
      · rw [if_neg (mt hmore_iff.mp hmore), List.drop_eq_nil_of_le (Nat.not_lt.mp hmore)]
        rfl

end Indexed

/-! ## Nothing is lost -/

/-- The lines, joined by line feeds and with one more at the end if there was one. -/
theorem join_lines (f : SourceFile) :
    Text.joinWith [10] (splitLines f.content) ++
      (if f.content.getLast? = some 10 then [10] else []) = f.content := by
  obtain ⟨init, last, hsplit, hfeed⟩ := parts_eq_concat f.content
  have hjoin := Text.joinWith_splitOn 10 f.content
  have hnil := last_part_eq_nil_iff hsplit hfeed
  rw [splitLines_of_concat hsplit]
  rw [hsplit] at hjoin
  by_cases hlast : last = []
  · rw [if_pos hlast]
    by_cases hinit : init = []
    · rw [hinit, hlast] at hjoin
      rw [hinit, ← hjoin]
      rfl
    · have hend : f.content.getLast? = some 10 := by
        refine (hnil.mp hlast).resolve_left ?_
        rw [← hjoin, Text.joinWith_concat last hinit]
        simp
      rw [if_pos hend, ← hjoin, Text.joinWith_concat last hinit, hlast, List.append_nil]
  · have hend : f.content.getLast? ≠ some 10 := fun hend => hlast (hnil.mpr (.inr hend))
    rw [if_neg hlast, if_neg hend, List.append_nil, hjoin]

theorem lines_texts (n : UInt32) (ls : List Text) : (number n ls).map (·.2) = ls := by
  induction ls generalizing n with
  | nil => rfl
  | cons l ls ih => rw [number, List.map_cons, ih]

/-- What it means that the lines of a file are its content, cut at the line feeds. -/
structure IsPartitioned (f : SourceFile) : Prop where
  numbers : f.lines.map (·.1.toNat) = List.range' 1 f.lineCount
  no_feed : ∀ l ∈ f.lines, 10 ∉ l.2
  joined : Text.joinWith [10] (f.lines.map (·.2)) ++
    (if f.content.getLast? = some 10 then [10] else []) = f.content
  count_eq_zero : f.lineCount = 0 ↔ f.content = []
  line_inside : ∀ n, 1 ≤ n → n ≤ f.lineCount → f.lines[n - 1]?.map (·.2) = some (f.line n)
  line_outside : ∀ n, n = 0 ∨ f.lineCount < n → f.line n = []
  /-- No access is out of range, whatever number is asked for. -/
  readLine : ∀ n, f.readLine? n = some (f.line n.toNat)
  /-- Reading one line after the other ends after the last one. -/
  readLines : ∀ fuel, f.lineCount < fuel → f.readLines? fuel 1 = some f.lines

theorem Indexed.isPartitioned {f : SourceFile} (h : f.Indexed) : f.IsPartitioned := by
  have hcount := h.lineCount_eq_length
  have hlength : f.lines.length = f.lineCount := by
    rw [hcount, ← congrArg List.length (lines_texts 1 (splitLines f.content)), List.length_map]
    rfl
  refine ⟨?_, ?_, ?_, h.lineCount_eq_zero_iff, ?_, fun n => line_outside, h.readLine?_eq, ?_⟩
  · refine List.ext_getElem (by rw [List.length_map, hlength, List.length_range']) ?_
    intro i hi _
    rw [List.length_map] at hi
    rw [List.getElem_map, List.getElem_range', Nat.one_mul, Nat.add_comm]
    exact (h.getElem?_lines (List.getElem?_eq_getElem hi)).2
  · rintro ⟨n, l⟩ hl
    obtain ⟨k, hk⟩ := List.mem_iff_getElem?.mp hl
    have hpart := getElem?_parts_of_splitLines (h.getElem?_lines hk).1
    exact Text.notMem_of_mem_splitOn (List.mem_of_getElem? hpart)
  · rw [lines, lines_texts]
    exact f.join_lines
  · intro n hpos hle
    have hl : (splitLines f.content)[n - 1]? = some (splitLines f.content)[n - 1] :=
      List.getElem?_eq_getElem (by omega)
    have hline := h.line_eq hl
    rw [Nat.sub_add_cancel hpos] at hline
    rw [lines, ← List.getElem?_map, lines_texts, hl, hline]
  · intro fuel hfuel
    exact h.readLines?_eq (k := 0) (Nat.zero_le _) hfuel

/-- However a file is built from fewer than 2³² - 1 bytes, its lines are a partition of what it
stores. -/
theorem isPartitioned_of_short {content : Text} (h : content.length < 2 ^ 32 - 1) :
    (∀ name, (ofBytes name content).IsPartitioned) ∧
    (∀ path, (ofDisk path content).IsPartitioned) ∧
    (∀ (s : FileSet) path flags, ∃ f, (s.add path content flags).files.back? = some f ∧
      f.content = content ∧ f.IsPartitioned) := by
  refine ⟨?_, ?_, ?_⟩
  · intro name
    exact (indexed_ofBytes name h).isPartitioned
  · intro path
    exact (indexed_ofDisk path h).isPartitioned
  · intro s path flags
    refine ⟨{ make path content flags with id := s.nextId }, Array.back?_push, rfl, ?_⟩
    exact Indexed.isPartitioned ⟨rfl, h⟩

/-- A content with an empty line, and one more line after the last line feed. -/
theorem isPartitioned_of_short_open :
    let f := ofBytes (bytes "a.cpp") (bytes "int x;\n\nint y;")
    f.IsPartitioned ∧ f.lines = [(1, bytes "int x;"), (2, []), (3, bytes "int y;")] ∧
      f.readLine? 3 = some (bytes "int y;") ∧ f.readLine? 4 = some [] :=
  ⟨(isPartitioned_of_short (by decide)).1 _, by decide, by decide, by decide⟩

end SourceFile

end LineReview
