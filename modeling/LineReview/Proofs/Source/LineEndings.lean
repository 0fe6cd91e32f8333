import LineReview.Review.Lines

/-!
# Line endings and byte order marks

A text may be written with a byte order mark in front, and each of its lines may
end in a line feed alone or in a carriage return and a line feed. None of this
reaches the stored content: it is the plain text, the one without the mark and
with bare line feeds (`normalise_rawText`). The flags of a file tell what was
there. Everything else about the file, and what a review finds in it, follows
from the content (`ofBytes_endings`).

Carriage returns that do not stand at the end of a line stay where they are, so
the lines here may hold any bytes except a line feed, and any but a carriage
return at the end.
-/

namespace LineReview

namespace SourceFile

/-! ## Written texts -/

/-- A line and how it ends: in a carriage return and a line feed, or in a line feed alone. -/
structure EndedLine where
  text : Text
  hasReturn : Bool

namespace EndedLine

/-- The line as it is written. -/
def raw (l : EndedLine) : Text := l.text ++ if l.hasReturn then [13, 10] else [10]

/-- The line with a bare line feed. -/
def plain (l : EndedLine) : Text := l.text ++ [10]

end EndedLine

/-- What a line can consist of: no line feed, and no carriage return at the end. -/
structure IsLineText (t : Text) : Prop where
  no_feed : 10 ∉ t
  no_return : t.getLast? ≠ some 13

/-- The byte order mark. -/
def mark : Text := [0xEF, 0xBB, 0xBF]

/-- Lines with their endings, and a last line that has none. -/
def rawLines (ls : List EndedLine) (last : Text) : Text := ls.flatMap EndedLine.raw ++ last

def plainText (ls : List EndedLine) (last : Text) : Text := ls.flatMap EndedLine.plain ++ last

/-- A text as it is written, with a mark in front or without. -/
def rawText (marked : Bool) (ls : List EndedLine) (last : Text) : Text :=
  (if marked then mark else []) ++ rawLines ls last

/-! ## Carriage returns -/

theorem removeReturns_cons {b : UInt8} {t : Text} (h : b ≠ 13 ∨ t.head? ≠ some 10) :
    removeReturns (b :: t) = b :: removeReturns t ∧ hasReturns (b :: t) = hasReturns t := by
  have hapart : ∀ u, b = 13 → t = 10 :: u → False := by
    rintro u rfl rfl
    rcases h with h | h
    · exact h rfl
    · exact h rfl
  rw [removeReturns.eq_3 b t hapart, hasReturns.eq_3 b t hapart]
  exact ⟨rfl, rfl⟩

/-- Nothing is removed from a line, unless it ends in a carriage return and a line feed follows. -/
theorem removeReturns_append {l t : Text} (hfeed : 10 ∉ l)
    (hend : l.getLast? ≠ some 13 ∨ t.head? ≠ some 10) :
    removeReturns (l ++ t) = l ++ removeReturns t ∧ hasReturns (l ++ t) = hasReturns t := by
  induction l with
  | nil => exact ⟨rfl, rfl⟩
  | cons b l ih =>
      have hfeed' : 10 ∉ l := fun hmem => hfeed (List.mem_cons_of_mem b hmem)
      -- what follows this byte is no line feed, or the byte is the end of the line
      have hnext : b ≠ 13 ∨ (l ++ t).head? ≠ some 10 := by
        cases l with
        | nil =>
            rcases hend with hend | hend
            · exact .inl fun hb => hend (congrArg some hb)
            · exact .inr hend
        | cons c l => exact .inr fun hc => hfeed' (Option.some.inj hc ▸ List.mem_cons_self)
      have hend' : l.getLast? ≠ some 13 ∨ t.head? ≠ some 10 := by
        cases l with
        | nil => exact .inl nofun
        | cons c l =>
            rw [List.getLast?_cons_cons] at hend
            exact hend
      obtain ⟨hremove, hhas⟩ := removeReturns_cons hnext
      obtain ⟨hremove', hhas'⟩ := ih hfeed' hend'
      rw [List.cons_append, hremove, hhas, hremove', hhas']
      exact ⟨rfl, rfl⟩

theorem removeReturns_raw {l : EndedLine} (h : IsLineText l.text) (t : Text) :
    removeReturns (l.raw ++ t) = l.plain ++ removeReturns t ∧
      hasReturns (l.raw ++ t) = (l.hasReturn || hasReturns t) := by
  rw [EndedLine.raw, EndedLine.plain, List.append_assoc, List.append_assoc]
  obtain ⟨hremove, hhas⟩ := removeReturns_append (t := _ ++ t) h.no_feed (.inl h.no_return)
  rw [hremove, hhas]
  cases l.hasReturn with
  | true => exact ⟨rfl, rfl⟩
  | false =>
      obtain ⟨hfeed, hnone⟩ := removeReturns_cons (b := 10) (t := t) (.inl (by decide))
      exact ⟨congrArg (l.text ++ ·) hfeed, hnone⟩

/-- The carriage returns that are removed are those of the line endings. -/
theorem removeReturns_rawLines {ls : List EndedLine} {last : Text}
    (hls : ∀ l ∈ ls, IsLineText l.text) (hlast : IsLineText last) :
    removeReturns (rawLines ls last) = plainText ls last ∧
      hasReturns (rawLines ls last) = ls.any (·.hasReturn) := by
  unfold rawLines plainText
  induction ls with
  | nil =>
      have hend := removeReturns_append (t := []) hlast.no_feed (.inl hlast.no_return)
      rw [List.append_nil, removeReturns, hasReturns, List.append_nil] at hend
      exact hend
  | cons l ls ih =>
      obtain ⟨hremove, hhas⟩ := ih fun k hk => hls k (List.mem_cons_of_mem l hk)
      obtain ⟨hfirst, hfirst'⟩ :=
        removeReturns_raw (hls l List.mem_cons_self) (ls.flatMap EndedLine.raw ++ last)
      rw [List.flatMap_cons, List.flatMap_cons, List.append_assoc, List.append_assoc, hfirst,
        hfirst', hremove, hhas]
      exact ⟨rfl, rfl⟩

/-! ## Marks -/

theorem removeMark_mark (t : Text) : removeMark (mark ++ t) = (t, true) := rfl

theorem removeMark_of_not_prefix {t : Text} (h : ¬ mark <+: t) : removeMark t = (t, false) := by
  unfold removeMark
  split
  · rename_i u
    exact absurd (List.prefix_append mark u) h
  · rfl

/-- Line endings do not make a mark. -/
theorem mark_prefix_plainText {ls : List EndedLine} {last : Text}
    (hls : ∀ l ∈ ls, IsLineText l.text) (hlast : IsLineText last)
    (h : mark <+: rawLines ls last) : mark <+: plainText ls last := by
  obtain ⟨u, hu⟩ := h
  rw [← (removeReturns_rawLines hls hlast).1, ← hu,
    (removeReturns_append (by decide) (.inl (by decide))).1]
  exact List.prefix_append mark _

/-- Only the plain text is stored, and the flags tell what was taken away. -/
theorem normalise_rawText {ls : List EndedLine} {last : Text} (marked : Bool)
    (hls : ∀ l ∈ ls, IsLineText l.text) (hlast : IsLineText last)
    (hmark : ¬ mark <+: plainText ls last) :
    normalise (rawText marked ls last) =
      (plainText ls last,
        (if marked then FileFlags.hadMark else 0) |||
          (if ls.any (·.hasReturn) then FileFlags.hadReturns else 0)) := by
  have hcut : removeMark (rawText marked ls last) = (rawLines ls last, marked) := by
    cases marked with
    | true => exact removeMark_mark _
    | false => exact removeMark_of_not_prefix fun h => hmark (mark_prefix_plainText hls hlast h)
  obtain ⟨hremove, hhas⟩ := removeReturns_rawLines hls hlast
  rw [normalise, hcut]
  dsimp only
  rw [hremove, hhas]

/-- The plain text is a written one as well: without a mark, and with bare line feeds only. -/
theorem normalise_plainText {ls : List EndedLine} {last : Text}
    (hls : ∀ l ∈ ls, IsLineText l.text) (hlast : IsLineText last)
    (hmark : ¬ mark <+: plainText ls last) :
    (normalise (plainText ls last)).1 = plainText ls last := by
  let bare := ls.map fun l => { l with hasReturn := false }
  have hbare : ∀ l ∈ bare, IsLineText l.text := by
    intro l hl
    obtain ⟨k, hk, rfl⟩ := List.mem_map.mp hl
    exact hls k hk
  have hplain : plainText bare last = plainText ls last := by
    rw [plainText, plainText, List.flatMap_map]
    rfl
  have hraw : rawText false bare last = plainText ls last := by
    rw [rawText, rawLines, plainText, List.flatMap_map]
    rfl
  have hnormal := normalise_rawText false hbare hlast (hplain ▸ hmark)
  rw [hraw, hplain] at hnormal
  rw [hnormal]

/-! ## Files -/

/-- A mark in front of a text and the endings of its lines show in the flags of its file, and only
there: the file stores the plain text, and has the lines and the diagnostics of the plain text. -/
theorem ofBytes_endings {ls : List EndedLine} {last : Text} (marked : Bool)
    (hls : ∀ l ∈ ls, IsLineText l.text) (hlast : IsLineText last)
    (hmark : ¬ mark <+: plainText ls last) (name : Text) (widths : Text.Widths)
    (o : ReviewOptions) :
    let f := ofBytes name (rawText marked ls last)
    let g := ofBytes name (plainText ls last)
    f.content = plainText ls last ∧ g.content = plainText ls last ∧
    f.hash = g.hash ∧ f.lineIndex = g.lineIndex ∧ f.lines = g.lines ∧
    Review.source widths o f = Review.source widths o g ∧
    (f.flags &&& FileFlags.hadReturns ≠ 0 ↔ ∃ l ∈ ls, l.hasReturn = true) ∧
    (f.flags &&& FileFlags.hadMark ≠ 0 ↔ marked = true) := by
  intro f g
  have hraw := normalise_rawText marked hls hlast hmark
  have hf : f.content = plainText ls last := congrArg Prod.fst hraw
  have hg : g.content = plainText ls last := normalise_plainText hls hlast hmark
  have hcontent : f.content = g.content := hf.trans hg.symm
  have hlines : f.lines = g.lines := by rw [lines, lines, hcontent]
  have hflags : f.flags = FileFlags.isVirtual ||| ((if marked then FileFlags.hadMark else 0) |||
      (if ls.any (·.hasReturn) then FileFlags.hadReturns else 0)) := by
    change FileFlags.isVirtual ||| (normalise (rawText marked ls last)).2 = _
    rw [hraw]
  refine ⟨hf, hg, ?_, ?_, hlines, ?_, ?_, ?_⟩
  · exact congrArg Digest.sha256 hcontent
  · exact congrArg (fun t => (lineFeeds 0 t).toArray) hcontent
  · rw [Review.source, Review.source, hlines]
  · rw [hflags, ← List.any_eq_true]
    cases marked <;> cases ls.any (·.hasReturn) <;> decide
  · rw [hflags]
    cases marked <;> cases ls.any (·.hasReturn) <;> decide

/-- Both endings in one text, a carriage return inside a line, and a last line without an ending. -/
theorem ofBytes_endings_mixed :
    let ls : List EndedLine := [⟨bytes "int x;", true⟩, ⟨[], false⟩, ⟨bytes "a\rb", true⟩]
    let last := bytes "int y;"
    let f := ofBytes (bytes "a.cpp") (rawText true ls last)
    rawText true ls last = mark ++ bytes "int x;\r\n\na\rb\r\nint y;" ∧
    f.content = bytes "int x;\n\na\rb\nint y;" ∧
    (f.flags &&& FileFlags.hadReturns ≠ 0 ↔ ∃ l ∈ ls, l.hasReturn = true) ∧
    (f.flags &&& FileFlags.hadMark ≠ 0 ↔ true = true) ∧
    Review.source .western {} f =
      Review.source .western {} (ofBytes (bytes "a.cpp") (plainText ls last)) ∧
    Review.source .western {} f ≠ [] := by
  intro ls last f
  have hls : ∀ l ∈ ls, IsLineText l.text := by
    simp only [ls, List.forall_mem_cons]
    exact ⟨⟨by decide, by decide⟩, ⟨by decide, by decide⟩, ⟨by decide, by decide⟩, nofun⟩
  have hlast : IsLineText last := ⟨by decide, by decide⟩
  obtain ⟨hcontent, _, _, _, _, hsource, hreturns, hmark⟩ :=
    ofBytes_endings true hls hlast (by decide) (bytes "a.cpp") .western {}
  exact ⟨by decide, hcontent.trans (by decide), hreturns, hmark, hsource, by decide +kernel⟩

end SourceFile

end LineReview
