import LineReview.Proofs.Review.Locality
import LineReview.Proofs.Source.Partition

/-!
# Reviews line by line

A review asks for one line after the other by its number. In a file of fewer than
2³² - 1 bytes it comes to the last line before the numbers run over, so it goes
through the lines of the file (`byNumber_eq`). In a longer file it may break off,
or begin again with the first line and never end (`outcome?_feeds`). Numbers come
back after 2³² rounds, and a round only depends on the number of its line, so a
review that has not ended by then never does: `outcome?` is what the review comes
to in some number of rounds (`outcome?_eq_some_iff`).
-/

namespace LineReview

namespace Review

open SourceFile (number splitLines lineFeeds feedOffsets)

section

variable {widths : Text.Widths} {o : ReviewOptions} {classify : LineClassifier} {f : SourceFile}
variable {count n : UInt32} {b : Bag} {rounds : Nat}

/-! ## Short files -/

/-- The rounds go through the lines. The induction is on the rounds that are left, with `k` lines
behind. -/
theorem addFrom_eq (h : f.Indexed) {k : Nat} (hk : k ≤ f.lineCount)
    (hrounds : f.lineCount < rounds + k) (b : Bag) :
    addFrom widths o classify f f.lineCount.toUInt32 rounds (UInt32.ofNat (k + 1)) b =
      some (addLines widths o classify b
        (number (UInt32.ofNat (k + 1)) ((splitLines f.content).drop k))) := by
  have hcount := h.lineCount_eq_length
  induction rounds generalizing k b with
  | zero => omega
  | succ rounds ih =>
      have hmore_iff := h.number_le_count_iff hk
      rw [addFrom]
      by_cases hmore : k < (splitLines f.content).length
      · have hnext : UInt32.ofNat (k + 1) + 1 = UInt32.ofNat (k + 1 + 1) :=
          (UInt32.ofNat_add (k + 1) 1).symm
        rw [if_pos (hmore_iff.mpr hmore), h.readLine?_number hmore,
          List.drop_eq_getElem_cons hmore, number, addLines]
        dsimp only
        cases classify (splitLines f.content)[k] with
        | error e => rfl
        | ok sites =>
            dsimp only
            rw [hnext]
            exact ih (by omega) (by omega) _
      · rw [if_neg (mt hmore_iff.mp hmore), List.drop_eq_nil_of_le (Nat.not_lt.mp hmore)]
        rfl

theorem byNumber_eq (h : f.Indexed) (hrounds : f.lineCount < rounds) :
    byNumber widths o classify f rounds = some (sourceWith widths o classify f) := by
  rw [byNumber, h.count?_eq]
  dsimp only
  rw [show (1 : UInt32) = UInt32.ofNat (0 + 1) from rfl, addFrom_eq h (Nat.zero_le _) (by omega)]
  rfl

theorem outcome?_of_short (h : f.content.length < 2 ^ 32 - 1) :
    outcome? widths o classify f = some (sourceWith widths o classify f) :=
  if_pos h

theorem outcome?_of_long (h : ¬ f.content.length < 2 ^ 32 - 1) :
    outcome? widths o classify f = byNumber widths o classify f UInt32.size :=
  if_neg h

/-! ## Files of any length -/

/-- In the round of a number there is a line, and the classifier does not give up on it. -/
def Passes (classify : LineClassifier) (f : SourceFile) (count n : UInt32) : Prop :=
  n ≤ count ∧ ∃ line, f.readLine? n = some line ∧ ∃ sites, classify line = .ok sites

/-- A round leads on to the next one, however many are left. -/
theorem addFrom_of_passes (h : Passes classify f count n) (widths : Text.Widths)
    (o : ReviewOptions) (b : Bag) :
    ∃ b', ∀ rounds, addFrom widths o classify f count (rounds + 1) n b =
      addFrom widths o classify f count rounds (n + 1) b' := by
  obtain ⟨hle, line, hline, sites, hsites⟩ := h
  refine ⟨b.addAll (findings widths o n line sites), fun rounds => ?_⟩
  rw [addFrom, if_pos hle, hline]
  dsimp only
  rw [hsites]

/-- Or it ends the review, however many are left. -/
theorem addFrom_of_not_passes (h : ¬ Passes classify f count n) (widths : Text.Widths)
    (o : ReviewOptions) (b : Bag) :
    ∃ x, ∀ rounds, addFrom widths o classify f count (rounds + 1) n b = some x := by
  by_cases hle : n ≤ count
  · cases hline : f.readLine? n with
    | none =>
        refine ⟨.error (outOfRange f n), fun rounds => ?_⟩
        rw [addFrom, if_pos hle, hline]
    | some line =>
        cases hsites : classify line with
        | error e =>
            refine ⟨.error e, fun rounds => ?_⟩
            rw [addFrom, if_pos hle, hline]
            dsimp only
            rw [hsites]
        | ok sites => exact absurd ⟨hle, line, hline, sites, hsites⟩ h
  · refine ⟨.ok b, fun rounds => ?_⟩
    rw [addFrom, if_neg hle]

/-- One more round does not change what has come out. -/
theorem addFrom_succ {x : Except Text Bag}
    (h : addFrom widths o classify f count rounds n b = some x) :
    addFrom widths o classify f count (rounds + 1) n b = some x := by
  induction rounds generalizing n b with
  | zero => cases h
  | succ rounds ih =>
      by_cases hpasses : Passes classify f count n
      · obtain ⟨b', hnext⟩ := addFrom_of_passes hpasses widths o b
        rw [hnext] at h ⊢
        exact ih h
      · obtain ⟨y, hend⟩ := addFrom_of_not_passes hpasses widths o b
        rw [hend] at h ⊢
        exact h

theorem byNumber_mono {x : Except Text (List Diagnostic)} {more : Nat} (hle : rounds ≤ more)
    (h : byNumber widths o classify f rounds = some x) :
    byNumber widths o classify f more = some x := by
  induction hle with
  | refl => exact h
  | step _ ih =>
      unfold byNumber at ih ⊢
      cases hcount : f.count? with
      | none =>
          rw [hcount] at ih
          exact ih
      | some count =>
          rw [hcount] at ih
          obtain ⟨y, hy, hx⟩ := Option.map_eq_some_iff.mp ih
          exact Option.map_eq_some_iff.mpr ⟨y, addFrom_succ hy, hx⟩

/-- Rounds are too few for a review when none of them ends it. -/
theorem addFrom_eq_none_iff :
    addFrom widths o classify f count rounds n b = none ↔
      ∀ i < rounds, Passes classify f count (n + UInt32.ofNat i) := by
  induction rounds generalizing n b with
  | zero => exact ⟨fun _ i hi => absurd hi (Nat.not_lt_zero i), fun _ => rfl⟩
  | succ rounds ih =>
      have hhead : n + UInt32.ofNat 0 = n := UInt32.add_zero n
      rw [Nat.forall_lt_succ_left', hhead]
      by_cases hpasses : Passes classify f count n
      · obtain ⟨b', heq⟩ := addFrom_of_passes hpasses widths o b
        rw [heq, ih]
        simp only [SourceFile.next_add_ofNat, hpasses, true_and]
      · obtain ⟨x, heq⟩ := addFrom_of_not_passes hpasses widths o b
        rw [heq]
        exact ⟨nofun, fun h => absurd h.1 hpasses⟩

/-- A review that has not ended when all numbers are used up never ends. -/
theorem addFrom_turn (h : addFrom widths o classify f count UInt32.size 1 b = none) (rounds : Nat) :
    addFrom widths o classify f count rounds 1 b = none := by
  rw [addFrom_eq_none_iff] at h ⊢
  intro i _
  have hi := h (i % UInt32.size) (Nat.mod_lt _ (by decide))
  rwa [UInt32.ofNat_mod_size] at hi

/-- The outcome of a review is what its rounds come to, if they come to an end. -/
theorem outcome?_eq_some_iff (hindex : f.lineIndex = (lineFeeds 0 f.content).toArray)
    {x : Except Text (List Diagnostic)} :
    outcome? widths o classify f = some x ↔
      ∃ rounds, byNumber widths o classify f rounds = some x := by
  rw [outcome?]
  split
  case isTrue hshort =>
    have hlines : ∀ {rounds}, f.lineCount < rounds → byNumber widths o classify f rounds =
        some (sourceWith widths o classify f) := byNumber_eq ⟨hindex, hshort⟩
    constructor
    · exact fun h => ⟨_, (hlines (Nat.lt_succ_self _)).trans h⟩
    · rintro ⟨rounds, h⟩
      have hmore := byNumber_mono (Nat.le_max_left rounds (f.lineCount + 1)) h
      rwa [hlines (Nat.lt_of_lt_of_le (Nat.lt_succ_self _) (Nat.le_max_right _ _))] at hmore
  case isFalse =>
    refine ⟨fun h => ⟨_, h⟩, ?_⟩
    rintro ⟨rounds, h⟩
    cases hturn : byNumber widths o classify f UInt32.size with
    | some y =>
        -- both are the outcome of the larger number of rounds
        have hx := byNumber_mono (Nat.le_max_left rounds UInt32.size) h
        have hy := byNumber_mono (Nat.le_max_right rounds UInt32.size) hturn
        exact hy.symm.trans hx
    | none =>
        unfold byNumber at h hturn
        cases hcount : f.count? with
        | none =>
            rw [hcount] at hturn
            cases hturn
        | some count =>
            rw [hcount] at h hturn
            dsimp only at h
            rw [addFrom_turn (Option.map_eq_none_iff.mp hturn) rounds] at h
            cases h

/-- A review only looks at the content of a file and at its index. -/
theorem outcome?_congr {g : SourceFile} (hcontent : f.content = g.content)
    (hindex : f.lineIndex = g.lineIndex) :
    outcome? widths o classify f = outcome? widths o classify g := by
  have hcount : f.count? = g.count? := by
    rw [SourceFile.count?, SourceFile.count?, hcontent, hindex]
  have hstart : ∀ n, f.lineStart? n = g.lineStart? n := by
    intro n
    rw [SourceFile.lineStart?, SourceFile.lineStart?, hindex]
  have hstop : ∀ n, f.lineStop n = g.lineStop n := by
    intro n
    rw [SourceFile.lineStop, SourceFile.lineStop, hcontent, hindex]
  have hread : ∀ n, f.readLine? n = g.readLine? n := by
    intro n
    simp only [SourceFile.readLine?, SourceFile.slice?, hcount, hstart, hstop, hcontent]
  have hfrom : ∀ count rounds n b, addFrom widths o classify f count rounds n b =
      addFrom widths o classify g count rounds n b := by
    intro count rounds
    induction rounds with
    | zero => exact fun _ _ => rfl
    | succ rounds ih =>
        intro n b
        simp only [addFrom, hread, outOfRange, hstart, hstop, ih]
  simp only [outcome?, byNumber, sourceWith, SourceFile.lines, hcount, hfrom, hcontent]

/-- The review of a short file comes to an end. -/
theorem isSome_outcome? (h : f.content.length < 2 ^ 32 - 1) :
    (outcome? widths o classify f).isSome = true := by
  rw [outcome?_of_short h, Option.isSome_some]

end

/-! ## A file whose review never ends -/

theorem feedOffsets_replicate (offset n : Nat) :
    feedOffsets offset (List.replicate n 10) = List.range' offset n := by
  induction n generalizing offset with
  | zero => rfl
  | succ n ih => rw [List.replicate_succ, feedOffsets, if_pos rfl, ih, List.range'_succ]

/-- The content is a line feed for every positive 32-bit number. -/
structure IsAllFeeds (f : SourceFile) : Prop where
  index : f.lineIndex = (lineFeeds 0 f.content).toArray
  content : f.content = List.replicate (2 ^ 32 - 1) 10

namespace IsAllFeeds

variable {f : SourceFile}

theorem lineIndex_eq (h : IsAllFeeds f) :
    f.lineIndex = ((List.range' 0 (2 ^ 32 - 1)).map Nat.toUInt32).toArray := by
  rw [h.index, h.content, SourceFile.lineFeeds_eq_map, feedOffsets_replicate]

theorem count?_eq (h : IsAllFeeds f) : f.count? = some (UInt32.ofNat (2 ^ 32 - 1)) := by
  have hsize : f.lineIndex.size = 2 ^ 32 - 1 := by
    rw [h.lineIndex_eq, List.size_toArray, List.length_map, List.length_range']
  rw [SourceFile.count?, hsize, if_pos (by decide), h.content, List.getLast?_replicate]
  rfl

/-- The line feed behind a line stands where the number of the line before it says. -/
theorem getElem?_of_toNat (h : IsAllFeeds f) {n : UInt32} (hpos : 1 ≤ n.toNat) :
    f.lineIndex[(n - 1).toNat]? = some (n - 1) := by
  have hlt := n.toNat_lt
  have hprevious : (n - 1).toNat = n.toNat - 1 :=
    UInt32.toNat_sub_of_le n 1 (UInt32.le_iff_toNat_le.mpr hpos)
  rw [h.lineIndex_eq, List.getElem?_toArray, List.getElem?_map,
    List.getElem?_range' (by omega : (n - 1).toNat < 2 ^ 32 - 1), Nat.zero_add, Nat.one_mul]
  exact congrArg some UInt32.ofNat_toNat

/-- No line is out of range. -/
theorem exists_readLine? (h : IsAllFeeds f) (n : UInt32) : ∃ line, f.readLine? n = some line := by
  rw [SourceFile.readLine?, h.count?_eq, Option.bind_some]
  split
  · exact ⟨[], rfl⟩
  · rename_i hinside
    have hlt := n.toNat_lt
    have hpos : 1 ≤ n.toNat :=
      Nat.one_le_iff_ne_zero.mpr fun hzero => hinside (.inl (UInt32.toNat_inj.mp hzero))
    have hstop : f.lineStop n = n - 1 := by
      rw [SourceFile.lineStop, h.getElem?_of_toNat hpos]
      rfl
    have hprevious : (n - 1).toNat = n.toNat - 1 :=
      UInt32.toNat_sub_of_le n 1 (UInt32.le_iff_toNat_le.mpr hpos)
    have hstart : f.lineStart? n = some (n - 1) := by
      rw [SourceFile.lineStart?]
      split
      · rename_i hsecond
        have hsecond : 1 < n.toNat := UInt32.lt_iff_toNat_lt.mp hsecond
        have hback : n - 2 = n - 1 - 1 := by grind
        rw [hback, h.getElem?_of_toNat (by omega), Option.map_some, UInt32.sub_add_cancel]
      · rename_i hfirst
        have hone : n = 1 := by
          refine UInt32.toNat_inj.mp ?_
          have := UInt32.le_iff_toNat_le.mp (UInt32.not_lt.mp hfirst)
          exact Nat.le_antisymm this hpos
        rw [hone]
        rfl
    have hlength : f.content.length = 2 ^ 32 - 1 := by rw [h.content, List.length_replicate]
    rw [hstart, Option.bind_some, hstop, SourceFile.slice?,
      if_pos ⟨UInt32.le_refl _, by omega⟩]
    exact ⟨_, rfl⟩

end IsAllFeeds

/-- The review of as many line feeds as there are positive numbers begins again after the last of
them. -/
theorem outcome?_feeds (widths : Text.Widths) (o : ReviewOptions) {f : SourceFile}
    (h : IsAllFeeds f) : outcome? widths o o.lexical f = none := by
  have hpasses : ∀ n, Passes o.lexical f (UInt32.ofNat (2 ^ 32 - 1)) n := by
    intro n
    have hle := n.toNat_lt
    obtain ⟨line, hline⟩ := h.exists_readLine? n
    refine ⟨UInt32.le_iff_toNat_le.mpr ?_, line, hline, _, rfl⟩
    change n.toNat ≤ 2 ^ 32 - 1
    omega
  have hlong : ¬ f.content.length < 2 ^ 32 - 1 := by
    rw [h.content, List.length_replicate]
    exact Nat.lt_irrefl _
  rw [outcome?_of_long hlong, byNumber, h.count?_eq]
  dsimp only
  rw [addFrom_eq_none_iff.mpr fun i _ => hpasses _]
  rfl

end Review

end LineReview
