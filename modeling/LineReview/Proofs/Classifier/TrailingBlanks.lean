import LineReview.Proofs.Classifier.Sites
import LineReview.Proofs.Text.Blanks
import Mathlib.Data.List.Basic

/-!
# Blanks behind a line

Blanks at the end of a line change none of its sites (`classify_append`). The
expressions look for words and marks, and where one of them could go on into the
blanks it only skips them: a keyword may find blanks behind it but then no word
(`SameRest`). So every expression matches at the same places, and a search finds
the same first match (`searchWord_append`, `candidates_append`).

What does change is the body of a brace that is not closed on the line: it goes
on to the end of the line, so it takes the blanks in (`braceBody?_append`). No
name begins there, and the last item of an enum body has only blanks more.
-/

namespace LineReview.Classifier

open Text (IsBlanks IsSolid)

theorem isWordByte_of_isBlank {b : UInt8} (h : Text.isBlank b = true) : isWordByte b = false := by
  rcases Text.eq_of_isBlank h with rfl | rfl | rfl | rfl | rfl <;> decide

/-! ## Keywords and words -/

/-- What remains of a text behind a match, and what remains when there are blanks `s` behind the
text: the same with the blanks behind it, or nothing to go on with in both cases. -/
inductive SameRest (s : Text) : Option Text → Option Text → Prop
  | found (r : Text) : SameRest s (some r) (some (r ++ s))
  | nothing {a a' : Option Text} (h : a.getD [] = []) (h' : a'.getD [] = []) : SameRest s a a'

section

variable {s : Text}

theorem SameRest.bind {α : Type} {a a' : Option Text} {g g' : Text → Option α}
    (h : SameRest s a a') (hnil : g [] = none) (hnil' : g' [] = none)
    (hg : ∀ r, g' (r ++ s) = g r) : a'.bind g' = a.bind g := by
  cases h with
  | found r => exact hg r
  | nothing h h' =>
      have hnone : ∀ {a : Option Text} {g : Text → Option α}, a.getD [] = [] → g [] = none →
          a.bind g = none := by
        intro a g ha hg
        cases a with
        | none => rfl
        | some r =>
            rw [show r = [] from ha]
            exact hg
      rw [hnone h hnil, hnone h' hnil']

/-- Blanks in front are skipped. -/
theorem sameRest_dropWhile (hs : IsBlanks s) (t : Text) :
    SameRest s (some (t.dropWhile Text.isBlank)) (some ((t ++ s).dropWhile Text.isBlank)) := by
  rw [Text.dropWhile_append_of_all hs]
  split
  · rename_i hnil
    exact .nothing hnil rfl
  · exact .found _

theorem keywordAt_of_strip? {k : String} {t : Text} (h : Text.strip? t (bytes k) = none) :
    keywordAt k t = none := by
  rw [keywordAt, h]
  rfl

theorem sameRest_keywordAt {k : String} (hs : IsBlanks s) (hk : IsSolid (bytes k)) (t : Text) :
    SameRest s (keywordAt k t) (keywordAt k (t ++ s)) := by
  rw [keywordAt, keywordAt, Text.strip?_append hs hk]
  cases Text.strip? t (bytes k) with
  | none => exact .nothing rfl rfl
  | some r =>
      cases r with
      | nil =>
          -- the keyword ends the text: whether blanks follow it or nothing, no word does
          refine .nothing rfl ?_
          cases s with
          | nil => rfl
          | cons b s =>
              change Option.getD
                (if Text.isBlank b then some ((b :: s).dropWhile Text.isBlank) else none) [] = []
              rw [if_pos (hs b List.mem_cons_self)]
              exact List.dropWhile_eq_nil_iff.mpr hs
      | cons b r =>
          change SameRest s
            (if Text.isBlank b then some ((b :: r).dropWhile Text.isBlank) else none)
            (if Text.isBlank b then some ((b :: r ++ s).dropWhile Text.isBlank) else none)
          split
          · exact sameRest_dropWhile hs (b :: r)
          · exact .nothing rfl rfl

theorem wordAt_append (hs : IsBlanks s) (t : Text) :
    wordAt (t ++ s) = (wordAt t).map fun p => (p.1, p.2 ++ s) := by
  obtain ⟨htake, hdrop⟩ :=
    Text.takeWhile_append_of_stop (fun b hb => isWordByte_of_isBlank (hs b hb)) t
  unfold wordAt
  rw [htake, hdrop]
  dsimp only
  split <;> rfl

theorem bind_wordAt_append {α : Type} (hs : IsBlanks s) {f g : Text × Text → Option α} {t : Text}
    (h : ∀ w rest, g (w, rest ++ s) = f (w, rest)) :
    (wordAt (t ++ s)).bind g = (wordAt t).bind f := by
  rw [wordAt_append hs]
  cases wordAt t with
  | none => rfl
  | some p => exact h p.1 p.2

theorem SameRest.word {α : Type} {a a' : Option Text} {f g : Text → Text × Text → Option α}
    (h : SameRest s a a') (hs : IsBlanks s)
    (hf : ∀ r w rest, g (r ++ s) (w, rest ++ s) = f r (w, rest)) :
    (a'.bind fun r => (wordAt r).bind (g r)) = a.bind fun r => (wordAt r).bind (f r) :=
  h.bind rfl rfl fun r => bind_wordAt_append hs (hf r)

/-- Offsets are counted from the end, so they are the same with blanks at the end. -/
theorem length_sub_append (whole t : Text) :
    (whole ++ s).length - (t ++ s).length = whole.length - t.length := by
  rw [List.length_append, List.length_append]
  omega

theorem spanOf_append (whole t w : Text) : spanOf (whole ++ s) (t ++ s) w = spanOf whole t w := by
  rw [spanOf, spanOf, length_sub_append]

/-- `class` and `struct` cannot both stand in front, so trying them in turn is like trying the one
that does. -/
theorem sameRest_recordKeyword (hs : IsBlanks s) (t : Text) :
    SameRest s ((keywordAt "class" t).orElse fun _ => keywordAt "struct" t)
      ((keywordAt "class" (t ++ s)).orElse fun _ => keywordAt "struct" (t ++ s)) := by
  have hclass : IsSolid (bytes "class") := by decide
  have hstruct : IsSolid (bytes "struct") := by decide
  cases hstrip : Text.strip? t (bytes "class") with
  | none =>
      have hstrip' : Text.strip? (t ++ s) (bytes "class") = none := by
        rw [Text.strip?_append hs hclass, hstrip, Option.map_none]
      rw [keywordAt_of_strip? hstrip, keywordAt_of_strip? hstrip']
      exact sameRest_keywordAt hs hstruct t
  | some r =>
      have hother : Text.strip? t (bytes "struct") = none := by
        rw [Text.eq_append_of_strip? hstrip]
        rfl
      have hother' : Text.strip? (t ++ s) (bytes "struct") = none := by
        rw [Text.strip?_append hs hstruct, hother, Option.map_none]
      rw [keywordAt_of_strip? hother, keywordAt_of_strip? hother', Option.orElse_eq_or,
        Option.orElse_eq_or, Option.or_none, Option.or_none]
      exact sameRest_keywordAt hs hclass t

/-! ## Expressions -/

/-- Blanks behind the text make no difference, and nothing is found in the empty text. -/
structure IgnoresBlanks {α : Type} (at? : Text → Option α) : Prop where
  nil : at? [] = none
  append : ∀ {s : Text}, IsBlanks s → ∀ t, at? (t ++ s) = at? t

theorem IgnoresBlanks.blanks {α : Type} {at? : Text → Option α} (h : IgnoresBlanks at?)
    (hs : IsBlanks s) : at? s = none :=
  (h.append hs []).trans h.nil

theorem keywordAt_nil (k : String) : keywordAt k [] = none := by
  unfold keywordAt
  cases bytes k <;> rfl

theorem ignoresBlanks_namedAt {k : String} (hk : IsSolid (bytes k)) :
    IgnoresBlanks (namedAt k) where
  nil := by
    rw [namedAt, keywordAt_nil]
    rfl
  append hs t := by
    refine (sameRest_keywordAt hs hk t).word hs ?_
    intro r w _
    dsimp only
    rw [spanOf_append]

theorem ignoresBlanks_enumAt : IgnoresBlanks enumAt where
  nil := rfl
  append {s} hs t := by
    refine (sameRest_keywordAt hs (by decide) t).bind rfl rfl ?_
    intro r
    refine congrArg₂ (fun a b => Option.orElse a fun _ => b) ?scopedHead ?plainHead
    case scopedHead =>
      refine (sameRest_recordKeyword hs r).word hs ?_
      intro u w _
      dsimp only
      rw [spanOf_append]
    case plainHead =>
      refine bind_wordAt_append hs ?_
      intro w _
      dsimp only
      rw [spanOf_append]

theorem ignoresBlanks_recordAt : IgnoresBlanks recordAt where
  nil := rfl
  append {s} hs t := by
    refine (sameRest_recordKeyword hs t).word hs ?_
    intro _ _ rest
    dsimp only
    -- neither a brace nor a semicolon stands among the blanks
    have hpass : ∀ b ∈ s, (b != 123 && b != 59) = true := by
      intro b hb
      rcases Text.eq_of_isBlank (hs b hb) with rfl | rfl | rfl | rfl | rfl <;> decide
    rw [Text.dropWhile_append_of_all hpass]
    cases rest.dropWhile (fun b => b != 123 && b != 59) with
    | nil => rfl
    | cons b u =>
        rw [if_neg (List.cons_ne_nil b u), List.cons_append]
        by_cases hb : b = 123
        · subst hb
          exact congrArg (fun n => some (n - 1)) (length_sub_append t u)
        · simp [hb]

theorem assignedAt_append (hs : IsBlanks s) (whole t : Text) :
    assignedAt (whole ++ s) (t ++ s) = assignedAt whole t := by
  refine bind_wordAt_append hs ?_
  intro w rest
  dsimp only
  rw [Text.dropWhile_append_of_all hs]
  cases rest.dropWhile Text.isBlank with
  | nil => rfl
  | cons b u =>
      rw [if_neg (List.cons_ne_nil b u), List.cons_append]
      dsimp only
      rw [spanOf_append, length_sub_append]

theorem ignoresBlanks_candidateAt : IgnoresBlanks candidateAt where
  nil := rfl
  append {s} hs t := by
    have hplain := assignedAt_append hs t
    have hafter : ∀ r, (((keywordAt "bool" (r ++ s)).bind (assignedAt (t ++ s))).orElse
        fun _ => assignedAt (t ++ s) (r ++ s)) =
          ((keywordAt "bool" r).bind (assignedAt t)).orElse fun _ => assignedAt t r := by
      intro r
      rw [hplain, (sameRest_keywordAt hs (by decide) r).bind rfl rfl hplain]
    refine congrArg₂ (fun a b => Option.orElse a fun _ => b) ?_ (hafter t)
    exact (sameRest_keywordAt hs (by decide) t).bind rfl rfl hafter

/-! ## Searches -/

theorem searchWord_append {α : Type} {at? : Text → Option α} (h : IgnoresBlanks at?)
    (hs : IsBlanks s) (afterWord : Bool) (offset : Nat) (t : Text) :
    searchWord at? afterWord offset (t ++ s) = searchWord at? afterWord offset t := by
  induction t generalizing afterWord offset with
  | nil =>
      rw [List.nil_append]
      induction s generalizing afterWord offset with
      | nil => rfl
      | cons b s ih =>
          unfold searchWord
          rw [h.blanks hs, ite_self]
          exact ih hs.tail (isWordByte b) (offset + 1)
  | cons b t ih =>
      have hat := h.append hs (b :: t)
      rw [List.cons_append] at hat
      rw [List.cons_append, searchWord, searchWord, hat, ih]

theorem className?_append (hs : IsBlanks s) (line : Text) :
    className? (line ++ s) = className? line := by
  rw [className?, className?, searchWord_append (ignoresBlanks_namedAt (by decide)) hs]

theorem namespaceName?_append (hs : IsBlanks s) (line : Text) :
    namespaceName? (line ++ s) = namespaceName? line := by
  rw [namespaceName?, namespaceName?, searchWord_append (ignoresBlanks_namedAt (by decide)) hs]

theorem enum?_append (hs : IsBlanks s) (line : Text) : enum? (line ++ s) = enum? line := by
  rw [enum?, enum?, searchWord_append ignoresBlanks_enumAt hs]

theorem recordBrace?_append (hs : IsBlanks s) (line : Text) :
    recordBrace? (line ++ s) = recordBrace? line := by
  rw [recordBrace?, recordBrace?, searchWord_append ignoresBlanks_recordAt hs]

theorem searchCandidate_append (hs : IsBlanks s) (offset : Nat) (t : Text) :
    searchCandidate offset (t ++ s) = searchCandidate offset t := by
  induction t generalizing offset with
  | nil =>
      rw [List.nil_append]
      induction s generalizing offset with
      | nil => rfl
      | cons b s ih =>
          unfold searchCandidate
          rw [ignoresBlanks_candidateAt.blanks hs]
          exact ih hs.tail (offset + 1)
  | cons b t ih =>
      have hat := ignoresBlanks_candidateAt.append hs (b :: t)
      rw [List.cons_append] at hat
      rw [List.cons_append, searchCandidate, searchCandidate, hat, ih]

/-- A search ends behind where it began, and within the text. -/
theorem range_searchCandidate {offset : Nat} {t : Text} {c : Candidate}
    (h : searchCandidate offset t = some c) :
    c.start ≤ offset + t.length ∧ offset < c.stop ∧ c.stop ≤ offset + t.length := by
  induction t generalizing offset with
  | nil => cases h
  | cons b t ih =>
      rw [searchCandidate] at h
      split at h
      · rename_i c' hc'
        have hin := isIn_candidateAt hc'
        have hpos := hin.pos
        have hle := hin.le
        cases h
        dsimp only
        omega
      · have hrange := ih h
        rw [List.length_cons]
        omega

theorem candidatesFrom_append (hs : IsBlanks s) (fuel offset : Nat) (t : Text) :
    candidatesFrom fuel offset (t ++ s) = candidatesFrom fuel offset t := by
  induction fuel generalizing offset t with
  | zero => rfl
  | succ fuel ih =>
      rw [candidatesFrom, candidatesFrom, searchCandidate_append hs]
      cases hfirst : searchCandidate offset t with
      | none => rfl
      | some c =>
          obtain ⟨_, _, hle⟩ := range_searchCandidate hfirst
          dsimp only
          rw [List.drop_append_of_le_length (by omega), ih]

/-- More fuel than there are bytes finds nothing more. -/
theorem candidatesFrom_fuel {fuel fuel' : Nat} (offset : Nat) {t : Text} (h : t.length ≤ fuel)
    (h' : t.length ≤ fuel') : candidatesFrom fuel offset t = candidatesFrom fuel' offset t := by
  induction fuel generalizing fuel' offset t with
  | zero =>
      rw [List.length_eq_zero_iff.mp (Nat.le_zero.mp h)]
      cases fuel' <;> rfl
  | succ fuel ih =>
      cases fuel' with
      | zero =>
          rw [List.length_eq_zero_iff.mp (Nat.le_zero.mp h')]
          rfl
      | succ fuel' =>
          rw [candidatesFrom, candidatesFrom]
          cases hfirst : searchCandidate offset t with
          | none => rfl
          | some c =>
              obtain ⟨_, hlt, _⟩ := range_searchCandidate hfirst
              -- a candidate takes at least one byte, as each round takes one unit of fuel
              have hrest : (t.drop (c.stop - offset)).length + 1 ≤ t.length := by
                rw [List.length_drop]
                omega
              exact congrArg (c :: ·) (ih c.stop (by omega) (by omega))

theorem range_candidatesFrom {fuel offset : Nat} {t : Text} {c : Candidate}
    (h : c ∈ candidatesFrom fuel offset t) :
    c.start ≤ offset + t.length ∧ offset < c.stop ∧ c.stop ≤ offset + t.length := by
  induction fuel generalizing offset t with
  | zero => cases h
  | succ fuel ih =>
      rw [candidatesFrom] at h
      split at h
      · cases h
      · rename_i first hfirst
        have hrange := range_searchCandidate hfirst
        rcases List.mem_cons.mp h with rfl | h
        · exact hrange
        · have hrest := ih h
          rw [List.length_drop] at hrest
          omega

theorem candidates_append (hs : IsBlanks s) (line : Text) :
    candidates (line ++ s) = candidates line := by
  have hle : line.length ≤ (line ++ s).length := by
    rw [List.length_append]
    omega
  rw [candidates, candidates, candidatesFrom_append hs]
  exact candidatesFrom_fuel 0 hle (Nat.le_refl _)

/-! ## Bodies -/

/-- Braces that are closed are closed where they were; those that are not take in the blanks. -/
theorem closingOffset_append (hs : IsBlanks s) (depth : Nat) (t : Text) :
    closingOffset depth (t ++ s) =
      if closingOffset depth t = t.length then (t ++ s).length else closingOffset depth t := by
  induction t generalizing depth with
  | nil =>
      rw [closingOffset, List.length_nil, if_pos rfl, List.nil_append]
      induction s with
      | nil => rfl
      | cons b s ih =>
          have hopen : b ≠ 123 := fun h => hs.notMem (c := 123) rfl (h ▸ List.mem_cons_self)
          have hclose : b ≠ 125 := fun h => hs.notMem (c := 125) rfl (h ▸ List.mem_cons_self)
          unfold closingOffset
          rw [if_neg hopen, if_neg hclose, ih hs.tail, List.length_cons]
  | cons b t ih =>
      have hmore : ∀ d, closingOffset d (t ++ s) + 1 =
          if closingOffset d t + 1 = (b :: t).length then (b :: t ++ s).length
          else closingOffset d t + 1 := by
        intro d
        rw [ih d, List.length_cons, List.cons_append, List.length_cons]
        split <;> split <;> omega
      rw [List.cons_append]
      unfold closingOffset
      split
      · exact hmore (depth + 1)
      · split
        · split
          · rw [if_neg (by simp)]
          · rw [if_neg (by simp)]
          · exact hmore _
        · exact hmore depth

/-- A range up to the end of the line, moved along when blanks are put behind the line. -/
def Span.widen (line s : Text) (r : Span) : Span :=
  if r.stop = line.length then { r with stop := (line ++ s).length } else r

theorem Span.contains_widen {line : Text} {i : Nat} (hi : i < line.length) (r : Span) :
    (r.widen line s).contains i = r.contains i := by
  unfold Span.widen
  split
  · rename_i hstop
    have hlt : i < (line ++ s).length := by
      rw [List.length_append]
      omega
    rw [Span.contains, Span.contains, hstop, decide_eq_true hlt, decide_eq_true hi]
  · rfl

/-- What a range within the line holds has only blanks more when it is widened. -/
theorem Span.of_widen (hs : IsBlanks s) {line : Text} {r : Span} (hstart : r.start ≤ line.length)
    (hstop : r.stop ≤ line.length) :
    ∃ more, IsBlanks more ∧ (r.widen line s).of (line ++ s) = r.of line ++ more := by
  unfold Span.widen
  split
  · rename_i hend
    refine ⟨s, hs, ?_⟩
    have hlength : (line.drop r.start).length = r.stop - r.start := by
      rw [List.length_drop, hend]
    rw [Span.of, Span.of, Text.slice, Text.slice, ← hlength, List.take_length]
    dsimp only
    rw [List.drop_append_of_le_length hstart, List.take_of_length_le]
    rw [List.length_append, List.length_append, List.length_drop]
    omega
  · refine ⟨[], List.forall_mem_nil _, ?_⟩
    rw [Span.of, Span.of, Text.slice, Text.slice, List.append_nil,
      List.drop_append_of_le_length hstart, List.take_append_of_le_length]
    rw [List.length_drop]
    omega

theorem closingOffset_le (depth : Nat) (t : Text) : closingOffset depth t ≤ t.length := by
  induction t generalizing depth with
  | nil => exact Nat.le_refl _
  | cons b t ih =>
      have hmore : ∀ d, closingOffset d t + 1 ≤ (b :: t).length := fun d => Nat.succ_le_succ (ih d)
      unfold closingOffset
      split
      · exact hmore (depth + 1)
      · split
        · split
          · exact Nat.zero_le _
          · exact Nat.zero_le _
          · exact hmore _
        · exact hmore depth

/-- The body behind a brace that is opened before `body`. -/
theorem body_append (hs : IsBlanks s) {line : Text} {body : Nat} (hbody : body ≤ line.length) :
    (⟨body, body + closingOffset 1 ((line ++ s).drop body)⟩ : Span) =
      Span.widen line s ⟨body, body + closingOffset 1 (line.drop body)⟩ := by
  rw [List.drop_append_of_le_length hbody, closingOffset_append hs, Span.widen, List.length_append,
    List.length_append, List.length_drop]
  dsimp only
  by_cases hopen : closingOffset 1 (line.drop body) = line.length - body
  · have hstop : body + (line.length - body) = line.length := by omega
    rw [if_pos hopen, hopen, if_pos hstop, ← Nat.add_assoc, hstop]
  · have hstop : body + closingOffset 1 (line.drop body) ≠ line.length := by omega
    rw [if_neg hopen, if_neg hstop]

theorem braceBody?_append (hs : IsBlanks s) {line : Text} {start : Nat}
    (hstart : start ≤ line.length) :
    braceBody? (line ++ s) start = (braceBody? line start).map (Span.widen line s) := by
  rw [braceBody?, braceBody?, List.drop_append_of_le_length hstart,
    Text.indexOf?_append hs (by decide)]
  cases hi : Text.indexOf? 123 (line.drop start) with
  | none => rfl
  | some i =>
      have hlt := Text.lt_of_indexOf? hi
      rw [List.length_drop] at hlt
      exact congrArg some (body_append hs (by omega))

theorem range_braceBody? {line : Text} {start : Nat} {r : Span}
    (h : braceBody? line start = some r) : r.start ≤ line.length ∧ r.stop ≤ line.length := by
  obtain ⟨i, hi, rfl⟩ := Option.map_eq_some_iff.mp h
  have hlt := Text.lt_of_indexOf? hi
  have hle := closingOffset_le 1 (line.drop (start + i + 1))
  rw [List.length_drop] at hlt hle
  dsimp only
  omega

/-! ## Enumerators -/

theorem enumeratorAt_append (hs : IsBlanks s) (item : Text) :
    enumeratorAt (item ++ s) = enumeratorAt item := by
  unfold enumeratorAt
  dsimp only
  rw [Text.dropWhile_append_of_all hs]
  split
  · rename_i hnil
    rw [hnil]
    rfl
  · refine bind_wordAt_append hs ?_
    intro w _
    dsimp only
    rw [spanOf_append]

theorem enumeratorsFrom_append (hs : IsBlanks s) (offset : Nat) (init : List Text) (last : Text) :
    enumeratorsFrom offset (init ++ [last ++ s]) = enumeratorsFrom offset (init ++ [last]) := by
  induction init generalizing offset with
  | nil =>
      rw [List.nil_append, List.nil_append]
      unfold enumeratorsFrom
      rw [enumeratorAt_append hs]
      cases hr : enumeratorAt last with
      | none => rfl
      | some r =>
          dsimp only
          rw [((isWordIn_enumeratorAt hr).append s).2]
          rfl
  | cons item init ih =>
      rw [List.cons_append, List.cons_append, enumeratorsFrom, enumeratorsFrom, ih]

theorem enumerators_append (hs : IsBlanks s) {line : Text} {r : Span}
    (hstart : r.start ≤ line.length) (hstop : r.stop ≤ line.length) :
    enumerators (line ++ s) (r.widen line s) = enumerators line r := by
  obtain ⟨more, hmore, hof⟩ := Span.of_widen hs hstart hstop
  have hcomma : (44 : UInt8) ∉ more := hmore.notMem rfl
  obtain ⟨init, last, hsplit, hsplit'⟩ := Text.splitOn_append_of_notMem hcomma (r.of line)
  have hwiden : (r.widen line s).start = r.start := by
    unfold Span.widen
    split <;> rfl
  rw [enumerators, enumerators, hof, hsplit, hsplit', hwiden, enumeratorsFrom_append hmore]

/-! ## Sites -/

theorem isUsingDirective_eq (line : Text) :
    isUsingDirective line = ((keywordAt "using" (line.dropWhile Text.isBlank)).bind fun r =>
      (Text.strip? r (bytes "namespace")).map fun u => u.head?.all fun b => !isWordByte b).getD
        false := by
  unfold isUsingDirective
  cases keywordAt "using" (line.dropWhile Text.isBlank) with
  | none => rfl
  | some r =>
      rw [Option.bind_some]
      dsimp only
      cases Text.strip? r (bytes "namespace") with
      | none => rfl
      | some u => cases u <;> rfl

theorem isUsingDirective_append (hs : IsBlanks s) (line : Text) :
    isUsingDirective (line ++ s) = isUsingDirective line := by
  have hrest : SameRest s (keywordAt "using" (line.dropWhile Text.isBlank))
      (keywordAt "using" ((line ++ s).dropWhile Text.isBlank)) := by
    rw [Text.dropWhile_append_of_all hs]
    split
    · rename_i hnil
      rw [hnil]
      exact .nothing rfl rfl
    · exact sameRest_keywordAt hs (by decide) _
  rw [isUsingDirective_eq, isUsingDirective_eq]
  refine congrArg (Option.getD · false) (hrest.bind rfl rfl ?_)
  intro r
  rw [Text.strip?_append hs (by decide), Option.map_map]
  refine Option.map_congr ?_
  intro u _
  cases u with
  | cons b u => rfl
  | nil =>
      -- the word is over at the end of the line, and so it is before a blank
      cases s with
      | nil => rfl
      | cons b s =>
          change (!isWordByte b) = true
          rw [isWordByte_of_isBlank (hs b List.mem_cons_self)]
          rfl

theorem isSkipped_append (hs : IsBlanks s) (o : ClassifierOptions) (line : Text) :
    isSkipped o (line ++ s) = isSkipped o line := by
  have hcomment : ∀ mark, IsSolid mark →
      (Text.trimLeft (line ++ s)).startsWith mark = (Text.trimLeft line).startsWith mark := by
    intro mark hsolid
    rw [Text.trimLeft_append hs]
    split
    · rename_i hnil
      rw [hnil]
    · exact Text.startsWith_append hs hsolid _
  rw [isSkipped, isSkipped, isUsingDirective_append hs]
  dsimp only
  rw [hcomment _ (by decide), hcomment _ (by decide), hcomment _ (by decide)]

theorem siteAt_append {line : Text} {r : Span} (h : r.IsWordIn line) (role : Role) :
    siteAt (line ++ s) role r = siteAt line role r := by
  rw [siteAt, siteAt, (h.append s).2]

theorem Span.IsWordIn.stop_le {line : Text} {r : Span} (h : r.IsWordIn line) :
    r.start < r.stop ∧ r.stop ≤ line.length := by
  obtain ⟨before, w, after, rfl, hne, _, rfl⟩ := h
  have hpos := List.length_pos_iff.mpr hne
  simp only [List.length_append]
  omega

theorem declares_append (hs : IsBlanks s) {line : Text} {c : Candidate} (h : c.IsIn line) :
    declares (line ++ s) c = declares line c := by
  have hstop := h.le
  have hname := h.word.stop_le
  have hrest : (line ++ s).drop (c.stop - 1) = line.drop (c.stop - 1) ++ s :=
    List.drop_append_of_le_length (by omega)
  have hbefore : (line ++ s).take c.name.start = line.take c.name.start :=
    List.take_append_of_le_length (by omega)
  unfold declares
  dsimp only
  rw [(h.word.append s).2, hrest, hbefore, Text.startsWith_append hs (by decide)]

theorem isIn_candidates {line : Text} {c : Candidate} (h : c ∈ candidates line) :
    c.IsIn line ∧ c.start ≤ line.length := by
  obtain ⟨hstart, hpos, hle⟩ := range_candidatesFrom h
  rw [Nat.zero_add] at hstart hle
  exact ⟨⟨isWordIn_candidatesFrom [] h, hpos, hle⟩, hstart⟩

theorem recordBrace?_le {line : Text} {n : Nat} (h : recordBrace? line = some n) :
    n ≤ line.length := by
  obtain ⟨⟨i, m⟩, hsearch, rfl⟩ := Option.map_eq_some_iff.mp h
  obtain ⟨before, rest, rfl, rfl, hrecord⟩ := searchWord_eq_some hsearch
  have hle : m ≤ rest.length := by
    unfold recordAt at hrecord
    obtain ⟨r, _, hrecord⟩ := Option.bind_eq_some_iff.mp hrecord
    obtain ⟨p, _, hrecord⟩ := Option.bind_eq_some_iff.mp hrecord
    dsimp only at hrecord
    split at hrecord
    · rw [← Option.some.inj hrecord]
      omega
    · cases hrecord
  rw [List.length_append]
  dsimp only
  omega

theorem recordBody?_append (hs : IsBlanks s) (line : Text) :
    recordBody? (line ++ s) = (recordBody? line).map (Span.widen line s) := by
  rw [recordBody?, recordBody?, recordBrace?_append hs]
  cases hbrace : recordBrace? line with
  | none => rfl
  | some n => exact braceBody?_append hs (recordBrace?_le hbrace)

theorem variableSites_append (hs : IsBlanks s) (line : Text) (types : List Span)
    (enumBody : Option Span) :
    variableSites (line ++ s) types (enumBody.map (Span.widen line s)) =
      variableSites line types enumBody := by
  have hword : ∀ w, IsSolid w → w ≠ [] → Text.hasInfix w (line ++ s) = Text.hasInfix w line :=
    fun w hsolid hne => Text.hasInfix_append hs hsolid hne line
  unfold variableSites
  dsimp only
  rw [candidates_append hs, recordBody?_append hs, hword _ (by decide) (by decide),
    hword _ (by decide) (by decide), hword _ (by decide) (by decide)]
  refine List.filterMap_congr ?_
  intro c hc
  obtain ⟨hin, hstart⟩ := isIn_candidates hc
  have hname : c.name.start < line.length :=
    Nat.lt_of_lt_of_le hin.word.stop_le.1 hin.word.stop_le.2
  have hcontains : ∀ body : Option Span,
      (body.map (Span.widen line s)).any (·.contains c.name.start) =
        body.any (·.contains c.name.start) := by
    intro body
    cases body with
    | none => rfl
    | some r => exact Span.contains_widen hname r
  rw [declares_append hs hin, hcontains, hcontains, (hin.word.append s).2,
    List.take_append_of_le_length hstart]

/-- Blanks behind a line change none of its sites. -/
theorem classify_append (hs : IsBlanks s) (o : ClassifierOptions) (line : Text) :
    classify o (line ++ s) = classify o line := by
  have hclass : ∀ r ∈ (className? line).toList,
      siteAt (line ++ s) .className r = siteAt line .className r :=
    fun r hr => siteAt_append (isWordIn_className? (Option.mem_toList.mp hr)) _
  have hnamespace : ∀ r ∈ (namespaceName? line).toList,
      siteAt (line ++ s) .namespaceName r = siteAt line .namespaceName r :=
    fun r hr => siteAt_append (isWordIn_namespaceName? (Option.mem_toList.mp hr)) _
  have hbody : ((enum? line).bind fun e => braceBody? (line ++ s) e.name.stop) =
      ((enum? line).bind fun e => braceBody? line e.name.stop).map (Span.widen line s) := by
    cases henum : enum? line with
    | none => rfl
    | some e => exact braceBody?_append hs (isWordIn_enum? henum).stop_le.2
  -- the heads are the same, and the body of the enum is at most widened
  unfold classify
  rw [isSkipped_append hs, className?_append hs, namespaceName?_append hs, enum?_append hs]
  dsimp only
  rw [List.map_congr_left hclass, List.map_congr_left hnamespace, hbody, variableSites_append hs]
  cases henum : enum? line with
  | none => rfl
  | some e =>
      have hname := siteAt_append (s := s) (isWordIn_enum? henum) .enumName
      dsimp only
      rw [hname, Option.bind_some]
      cases hrange : braceBody? line e.name.stop with
      | none => rfl
      | some r =>
          obtain ⟨hstart, hstop⟩ := range_braceBody? hrange
          dsimp only [Option.map_some]
          rw [enumerators_append hs hstart hstop]

end

end LineReview.Classifier
