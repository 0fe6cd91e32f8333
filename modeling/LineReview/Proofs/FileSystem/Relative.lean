import LineReview.Path.Climb
import LineReview.Proofs.FileSystem.Names

/-!
# Paths below a directory

The path of something below a directory is spelled with the names of the
directory in front, steps carried out. Seen from the working directory the steps
of a relative directory may go further up than the directory's own names
reach, so carrying them out first must not change where the path leads:
`foldl_descend_names`. From the directory such a path is the list of the names
below it (`inside?_below`). The way to any other place begins with a step up, and no
name that merely begins with two dots is taken for one (`climbs_up`, `climbs_ofNames`).
-/

namespace LineReview.Path

theorem names_clean (p : Text) : names (clean p) = names p := names_ofNames (normal_names p)

theorem isAbsolute_clean (p : Text) : isAbsolute (clean p) = isAbsolute p :=
  isAbsolute_ofNames (normal_names p)

theorem clean_ofNames {rooted : Bool} {ns : List Text} (hns : Normal rooted ns.reverse) :
    clean (ofNames rooted ns) = ofNames rooted ns := by
  rw [clean, isAbsolute_ofNames hns, names_ofNames hns]

theorem clean_clean (p : Text) : clean (clean p) = clean p := clean_ofNames (normal_names p)

theorem clean_absolute (cwd p : Text) : clean (absolute cwd p) = absolute cwd p := by
  unfold absolute
  split <;> rw [clean_clean]

/-- One more name behind a relative path: it makes no difference whether it is carried out on the
names of the path or on the place that they lead to. -/
theorem descend_foldl {rs : List Text} (hrs : Normal false rs) (st : List Text) (n : Text) :
    descend true (rs.reverse.foldl (descend true) st) n =
      (descend false rs n).reverse.foldl (descend true) st := by
  by_cases hskip : n = [] ∨ n = [46]
  · simp [descend, hskip]
  rw [not_or] at hskip
  have happend (top : Text) (rest : List Text) :
      (top :: rest).reverse.foldl (descend true) st =
        descend true (rest.reverse.foldl (descend true) st) top := by
    rw [List.reverse_cons, List.foldl_append]
    rfl
  by_cases hup : n = up
  · subst hup
    cases rs with
    | nil => rfl
    | cons top rest =>
        by_cases htop : top = up
        · subst htop
          have hstep : descend false (up :: rest) up = up :: up :: rest := rfl
          rw [hstep, happend up (up :: rest)]
        · -- the step takes back the name in front of it, on either side
          have hname : IsName top := ⟨hrs.1, hrs.2.1, htop, hrs.2.2.1⟩
          have hback (rooted : Bool) (ms : List Text) : descend rooted (top :: ms) up = ms := by
            have htop' : top ≠ [46, 46] := htop
            simp [descend, up, htop']
          rw [happend, descend_isName _ _ hname, hback, hback]
  · have hstep : descend false rs n = n :: rs := by simp [descend, hskip, hup]
    rw [hstep, happend]

theorem foldl_descend_foldl {rs : List Text} (hrs : Normal false rs) {ps : List Text}
    (hps : ∀ p ∈ ps, 47 ∉ p) (st : List Text) :
    (ps.foldl (descend false) rs).reverse.foldl (descend true) st =
      ps.foldl (descend true) (rs.reverse.foldl (descend true) st) := by
  induction ps generalizing rs with
  | nil => rfl
  | cons p ps ih =>
      rw [List.foldl_cons, List.foldl_cons, descend_foldl hrs]
      exact ih (normal_descend hrs (hps p List.mem_cons_self))
        (fun q hq => hps q (List.mem_cons_of_mem _ hq))

/-- The names of a relative path lead from any place to where the path leads as it is written. -/
theorem foldl_descend_names {p : Text} (hp : isAbsolute p = false) (st : List Text) :
    (names p).foldl (descend true) st = (Text.splitOn 47 p).foldl (descend true) st := by
  have hempty : Normal false ([] : List Text) := trivial
  rw [names, hp]
  exact foldl_descend_foldl hempty (fun q hq => Text.notMem_of_mem_splitOn hq) st

theorem isAbsolute_append {p : Text} (h : isAbsolute p = true) (t : Text) :
    isAbsolute (p ++ t) = true := by
  obtain ⟨u, rfl⟩ := eq_cons_of_isAbsolute h
  rfl

theorem names_absolute_of_relative {cwd p : Text} (hcwd : isAbsolute cwd = true)
    (hp : isAbsolute p = false) :
    names (absolute cwd p) =
      ((Text.splitOn 47 p).foldl (descend true) (names cwd).reverse).reverse := by
  rw [absolute, hp, if_neg Bool.false_ne_true, names_clean, names, isAbsolute_append hcwd,
    Text.splitOn_append, List.foldl_append, names, hcwd, List.reverse_reverse]

/-! ## Below a directory -/

/-- The path with the given names below a directory. -/
def below (dir : Text) (ms : List Text) : Text := ofNames (isAbsolute dir) (names dir ++ ms)

section Below

variable {dir : Text} {ms : List Text}

theorem below_nil (dir : Text) : below dir [] = clean dir := by
  rw [below, List.append_nil, clean]

theorem normal_below (dir : Text) (hms : ∀ m ∈ ms, IsName m) :
    Normal (isAbsolute dir) (names dir ++ ms).reverse :=
  normal_append (normal_names dir) hms

theorem names_below (dir : Text) (hms : ∀ m ∈ ms, IsName m) :
    names (below dir ms) = names dir ++ ms :=
  names_ofNames (normal_below dir hms)

theorem isAbsolute_below (dir : Text) (hms : ∀ m ∈ ms, IsName m) :
    isAbsolute (below dir ms) = isAbsolute dir :=
  isAbsolute_ofNames (normal_below dir hms)

theorem getLast?_below (dir : Text) (hne : ms ≠ []) (hms : ∀ m ∈ ms, IsName m) :
    (below dir ms).getLast? ≠ some 47 :=
  getLast?_ofNames (normal_below dir hms) (List.append_ne_nil_of_right_ne_nil _ hne)

/-- Different names below a directory have different paths. -/
theorem below_inj {ks : List Text} (hms : ∀ m ∈ ms, IsName m) (hks : ∀ k ∈ ks, IsName k)
    (h : below dir ms = below dir ks) : ms = ks := by
  have hnames := congrArg names h
  rw [names_below dir hms, names_below dir hks] at hnames
  exact List.append_cancel_left hnames

theorem join_eq_below (dir : Text) {m : Text} (hm : IsName m) : join dir m = below dir [m] :=
  join_names dir (List.cons_ne_nil m []) (fun _ hk => List.mem_singleton.mp hk ▸ hm)

/-- One more name is joined with a slash. -/
theorem join_below (hms : ∀ m ∈ ms, IsName m) {m : Text} (hm : IsName m) :
    join (below dir ms) m = below dir (ms ++ [m]) := by
  rw [join_eq_below _ hm]
  show ofNames (isAbsolute (below dir ms)) (names (below dir ms) ++ [m]) = below dir (ms ++ [m])
  rw [isAbsolute_below dir hms, names_below dir hms, List.append_assoc, below]

/-- Seen from the root, too, the names below a directory follow those of the directory. -/
theorem names_absolute_below {cwd : Text} (hcwd : isAbsolute cwd = true) (hne : ms ≠ [])
    (hms : ∀ m ∈ ms, IsName m) :
    names (absolute cwd (below dir ms)) = names (absolute cwd dir) ++ ms := by
  have hrooted := isAbsolute_below dir hms
  cases hdir : isAbsolute dir with
  | true =>
      rw [absolute, absolute, hrooted, hdir, if_pos rfl, if_pos rfl, names_clean, names_clean,
        names_below dir hms]
  | false =>
      have hnormal := normal_below dir hms
      rw [hdir] at hnormal hrooted
      have hsome : names dir ++ ms ≠ [] := List.append_ne_nil_of_right_ne_nil _ hne
      have hparts : Text.splitOn 47 (below dir ms) = names dir ++ ms := by
        rw [below, hdir, splitOn_ofNames hnormal hsome]
        rfl
      rw [names_absolute_of_relative hcwd hrooted, names_absolute_of_relative hcwd hdir, hparts,
        List.foldl_append, foldl_descend_names hdir, foldl_descend_isName hms]
      simp

end Below

/-! ## From one place to another -/

theorem way_append (base ms : List Text) : way base (base ++ ms) = ms := by
  induction base with
  | nil => simp [way]
  | cons b base ih => simp [way, ih]

/-- The way to a place that lies elsewhere begins with a step up. -/
theorem way_of_not_prefix {base target : List Text} (h : ¬ base <+: target) :
    ∃ ns, way base target = up :: ns := by
  induction base generalizing target with
  | nil => exact absurd List.nil_prefix h
  | cons b base ih =>
      cases target with
      | nil => exact ⟨List.replicate base.length up, by simp [way, List.replicate_succ]⟩
      | cons t target =>
          by_cases hbt : b = t
          · subst hbt
            rw [List.cons_prefix_cons, and_iff_right rfl] at h
            simpa [way] using ih h
          · exact ⟨List.replicate base.length up ++ t :: target, by
              simp [way, hbt, List.replicate_succ]⟩

theorem climbs_up (ns : List Text) : climbs (ofNames false (up :: ns)) = true := by
  cases ns with
  | nil => rfl
  | cons n ns => simp [climbs, ofNames, Text.joinWith, up, Text.startsWith]

theorem head?_of_climbs {p : Text} (h : climbs p = true) :
    (Text.splitOn 47 p).head? = some up := by
  rw [climbs, Bool.or_eq_true, beq_iff_eq] at h
  rcases h with rfl | hstart
  · rfl
  · rcases p with _ | ⟨a, _ | ⟨b, _ | ⟨c, t⟩⟩⟩ <;> simp [up, Text.startsWith] at hstart
    obtain ⟨rfl, rfl, rfl⟩ := hstart
    simp [Text.splitOn, up]

theorem climbs_ofNames {ms : List Text} (hms : ∀ m ∈ ms, IsName m) :
    climbs (ofNames false ms) = false := by
  rw [Bool.eq_false_iff]
  intro hclimbs
  have hhead := head?_of_climbs hclimbs
  cases ms with
  | nil => cases hhead
  | cons m ms =>
      rw [splitOn_ofNames (normal_of_isName hms false) (List.cons_ne_nil m ms)] at hhead
      exact (hms m List.mem_cons_self).ne_up (Option.some.inj hhead)

section Inside

variable {cwd base p : Text}

theorem isAbsolute_absolute (hcwd : isAbsolute cwd = true) (p : Text) :
    isAbsolute (absolute cwd p) = true := by
  unfold absolute
  split
  · next hp => rw [isAbsolute_clean, hp]
  · rw [isAbsolute_clean, isAbsolute_append hcwd]

theorem isName_of_mem_names (h : isAbsolute p = true) {n : Text} (hn : n ∈ names p) : IsName n := by
  have hnormal := normal_names p
  rw [h] at hnormal
  exact hnormal.isName n (List.mem_reverse.mpr hn)

/-- The path to a place at or below the directory is spelled by the names below it. -/
theorem inside?_of_append (hcwd : isAbsolute cwd = true) {ms : List Text}
    (h : names (absolute cwd p) = names (absolute cwd base) ++ ms) :
    inside? cwd base p = some (ofNames false ms) := by
  have hms : ∀ m ∈ ms, IsName m := fun m hm =>
    isName_of_mem_names (isAbsolute_absolute hcwd p) (h ▸ List.mem_append_right _ hm)
  simp [inside?, between, h, way_append, climbs_ofNames hms]

theorem inside?_of_not_prefix (h : ¬ names (absolute cwd base) <+: names (absolute cwd p)) :
    inside? cwd base p = none := by
  obtain ⟨ns, hns⟩ := way_of_not_prefix h
  simp [inside?, between, hns, climbs_up]

/-- The path from a directory to what stands below it. -/
theorem inside?_below {dir : Text} {ms : List Text} (hcwd : isAbsolute cwd = true) (hne : ms ≠ [])
    (hms : ∀ m ∈ ms, IsName m) : inside? cwd dir (below dir ms) = some (ofNames false ms) :=
  inside?_of_append hcwd (names_absolute_below hcwd hne hms)

end Inside

end LineReview.Path
