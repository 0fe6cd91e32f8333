import LineReview.Path

/-!
# Climbing

Whoever goes from a directory to its parent, and on from there, comes to a path
that is its own parent. No counter is needed to see this: the shortest spelling of a
path is no longer than the path (`length_clean_le`), and the parent of a path is the
shortest spelling of a proper front of it. Only the path `.` needs care, which is
the parent of every single name; `height` puts it below all others.
-/

namespace LineReview.Path

/-! ## Length of a spelling -/

/-- Bytes that names take up, each with a slash. -/
def room : List Text → Nat
  | [] => 0
  | n :: ns => n.length + 1 + room ns

@[simp] theorem room_nil : room [] = 0 := rfl

@[simp] theorem room_cons (n : Text) (ns : List Text) :
    room (n :: ns) = n.length + 1 + room ns := rfl

theorem room_append (ms ns : List Text) : room (ms ++ ns) = room ms + room ns := by
  induction ms with
  | nil => simp
  | cons m ms ih => simp [ih, Nat.add_assoc]

theorem room_reverse (ns : List Text) : room ns.reverse = room ns := by
  induction ns with
  | nil => rfl
  | cons n ns ih => simp [room_append, ih, Nat.add_comm]

theorem room_splitOn (t : Text) : room (Text.splitOn 47 t) = t.length + 1 := by
  induction t with
  | nil => rfl
  | cons b t ih =>
    unfold Text.splitOn
    split
    · simp [ih]
      omega
    · cases hs : Text.splitOn 47 t with
      | nil => exact absurd hs (Text.splitOn_ne_nil 47 t)
      | cons p ps =>
        simp [hs] at ih ⊢
        omega

theorem room_joinWith {ns : List Text} (h : ns ≠ []) :
    (Text.joinWith [47] ns).length + 1 = room ns := by
  induction ns with
  | nil => exact absurd rfl h
  | cons n ns ih =>
    cases ns with
    | nil => simp [Text.joinWith]
    | cons m ms =>
      have hrest := ih (List.cons_ne_nil m ms)
      simp [Text.joinWith] at hrest ⊢
      omega

theorem room_descend_le (rooted : Bool) (st : List Text) (n : Text) :
    room (descend rooted st n) ≤ room st + (n.length + 1) := by
  unfold descend
  split
  · omega
  split
  · next hup =>
    subst hup
    split
    · split <;> simp [up]
    · split <;> simp <;> omega
  · simp
    omega

theorem room_foldl_le (rooted : Bool) (ns st : List Text) :
    room (ns.foldl (descend rooted) st) ≤ room st + room ns := by
  induction ns generalizing st with
  | nil => simp
  | cons n ns ih =>
    have hstep := room_descend_le rooted st n
    have hrest := ih (descend rooted st n)
    simp only [List.foldl_cons, room_cons]
    omega

theorem room_names_le (p : Text) : room (names p) ≤ p.length + 1 := by
  have hroom := room_foldl_le (isAbsolute p) (Text.splitOn 47 p) []
  rw [← room_reverse, room_splitOn, room_nil, Nat.zero_add] at hroom
  exact hroom

theorem eq_cons_of_isAbsolute {p : Text} (h : isAbsolute p = true) : ∃ t, p = 47 :: t := by
  unfold isAbsolute at h
  split at h
  · exact ⟨_, rfl⟩
  · cases h

/-- The slash in front of an absolute path is no part of a name. -/
theorem room_names_le_of_isAbsolute {p : Text} (h : isAbsolute p = true) :
    room (names p) ≤ p.length := by
  obtain ⟨t, rfl⟩ := eq_cons_of_isAbsolute h
  have hroom := room_foldl_le true (Text.splitOn 47 t) []
  rw [← room_reverse, room_splitOn, room_nil, Nat.zero_add] at hroom
  have hnames : names (47 :: t) = ((Text.splitOn 47 t).foldl (descend true) []).reverse := by
    simp [names, h, Text.splitOn, descend]
  rw [hnames]
  exact hroom

theorem length_clean_le {p : Text} (h : p ≠ []) : (clean p).length ≤ p.length := by
  have hpos : 0 < p.length := List.length_pos_iff.mpr h
  unfold clean ofNames
  by_cases hne : names p = []
  · split <;> simp [hne, Text.joinWith] <;> omega
  have hlength := room_joinWith hne
  split
  · next habsolute =>
    have hroom := room_names_le_of_isAbsolute habsolute
    simp
    omega
  · have hroom := room_names_le p
    omega

/-! ## The parent -/

/-- A slash behind a path says nothing. -/
theorem clean_concat_slash {p : Text} (h : p ≠ []) : clean (p ++ [47]) = clean p := by
  obtain ⟨b, t, rfl⟩ := List.exists_cons_of_ne_nil h
  have habsolute : isAbsolute (b :: t ++ [47]) = isAbsolute (b :: t) := by
    by_cases hb : b = 47 <;> simp [isAbsolute, hb]
  rw [clean, clean, names, names, habsolute, Text.splitOn_append, List.foldl_append]
  simp [Text.splitOn, descend]

/-- Read from its end, a path is passed over up to the last slash. -/
theorem dropWhile_reverse {t : Text} (h : 47 ∉ t) (rest : Text) :
    (t.reverse ++ rest).dropWhile (· != 47) = rest.dropWhile (· != 47) := by
  apply List.dropWhile_append_of_pos
  intro b hb
  rw [bne_iff_ne]
  rintro rfl
  exact h (List.mem_reverse.mp hb)

theorem parent_append (dir : Text) {last : Text} (h : 47 ∉ last) :
    parent (dir ++ 47 :: last) = if dir = [] then [47] else clean dir := by
  have hreverse : (dir ++ 47 :: last).reverse = last.reverse ++ 47 :: dir.reverse := by simp
  rw [parent, hreverse, dropWhile_reverse h, List.dropWhile_cons_of_neg (by simp),
    List.reverse_cons, List.reverse_reverse]
  split
  · next hdir =>
    rw [hdir]
    rfl
  · next hdir => exact clean_concat_slash hdir

theorem parent_of_notMem {p : Text} (h : 47 ∉ p) : parent p = [46] := by
  have hnone := dropWhile_reverse h []
  rw [List.append_nil] at hnone
  rw [parent, hnone]
  rfl

theorem exists_last_slash {p : Text} (h : 47 ∈ p) :
    ∃ dir last, p = dir ++ 47 :: last ∧ 47 ∉ last := by
  obtain ⟨back, front, hreverse, hback⟩ := List.eq_append_cons_of_mem (List.mem_reverse.mpr h)
  refine ⟨front.reverse, back.reverse, ?_, by simpa using hback⟩
  rw [← List.reverse_reverse p, hreverse]
  simp

/-- How far a climb can still go. -/
def height (p : Text) : Nat := if p = [46] then 0 else p.length + 1

/-- Every step of a climb that does not stay where it is leads lower. -/
theorem height_parent_lt {p : Text} (h : parent p ≠ p) : height (parent p) < height p := by
  have hhere : p ≠ [46] := by
    rintro rfl
    exact h rfl
  have hle : height (parent p) ≤ (parent p).length + 1 := by
    unfold height
    split <;> omega
  rw [show height p = p.length + 1 from if_neg hhere]
  by_cases hslash : 47 ∈ p
  · obtain ⟨dir, last, rfl, hlast⟩ := exists_last_slash hslash
    rw [parent_append dir hlast] at h hle ⊢
    by_cases hdir : dir = []
    · -- a path in the root, with a name behind its slash
      subst hdir
      have hpos : 0 < last.length := by
        rw [List.length_pos_iff]
        rintro rfl
        exact h rfl
      simp at hle ⊢
      omega
    · have hshort := length_clean_le hdir
      simp [hdir] at hle ⊢
      omega
  · rw [parent_of_notMem hslash]
    exact Nat.succ_pos _

end LineReview.Path
