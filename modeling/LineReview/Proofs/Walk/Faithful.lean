import LineReview.Proofs.FileSystem.Relative
import LineReview.Walk

/-!
# Relative paths lead where they should

A path that lies at or below a directory, name by name, is spelled from that directory by a
path that never climbs out of it and leads back to where it came from. A path that lies
elsewhere keeps its absolute form, and a walker has no path for it at all
(`relative_faithful`).

Directories that share the beginning of a name are not below each other, and a name
that begins with two dots is a name like any other: both matter only because the path
between two places is a text, in which a step up is told by its bytes.
-/

namespace LineReview.Path

/-- Does a path lead to the directory or to something below it? Both are spelled from the root and
have no steps left. -/
def IsAtOrBelow (base p : Text) : Prop := FileSystem.pieces base <+: FileSystem.pieces p

/-- A relative path that does not begin with a step up and leads from the directory to `p`. -/
structure LeadsFrom (base p r : Text) : Prop where
  isRelative : isAbsolute r = false
  stays : (FileSystem.pieces r).head? ≠ some up
  arrives : clean (base ++ 47 :: r) = p

/-- The names of a path from the root are what is written between its slashes. -/
theorem pieces_absolute {cwd : Text} (hcwd : isAbsolute cwd = true) (p : Text) :
    FileSystem.pieces (absolute cwd p) = names (absolute cwd p) := by
  have hnormal := normal_names (absolute cwd p)
  have hspelled := clean_absolute cwd p
  rw [clean] at hspelled
  rw [isAbsolute_absolute hcwd] at hnormal hspelled
  by_cases hne : names (absolute cwd p) = []
  · rw [hne] at hspelled ⊢
    rw [← hspelled]
    rfl
  · rw [← FileSystem.pieces_ofNames hnormal hne, hspelled]

/-- Staying where one is leads nowhere else. -/
theorem clean_append_here {p : Text} (h : isAbsolute p = true) :
    clean (p ++ 47 :: [46]) = clean p := by
  rw [clean, clean, names, names, isAbsolute_append h, h, Text.splitOn_append, List.foldl_append]
  rfl

/-- The names below a directory lead from there to where they stand. -/
theorem leadsFrom_ofNames {base p : Text} {ms : List Text} (hbase : isAbsolute base = true)
    (hp : isAbsolute p = true) (hnames : names p = names base ++ ms) (hclean : clean p = p) :
    LeadsFrom base p (ofNames false ms) := by
  have hms : ∀ m ∈ ms, IsName m := fun m hm =>
    isName_of_mem_names hp (hnames ▸ List.mem_append_right _ hm)
  have hnormal : Normal false ms.reverse := normal_of_isName hms false
  refine ⟨isAbsolute_ofNames hnormal, ?_, ?_⟩
  · cases ms with
    | nil => decide
    | cons m ms =>
        rw [FileSystem.pieces_ofNames hnormal (List.cons_ne_nil m ms)]
        intro hup
        exact (hms m List.mem_cons_self).ne_up (Option.some.inj hup)
  · cases ms with
    | nil =>
        rw [List.append_nil] at hnames
        show clean (base ++ 47 :: [46]) = p
        rw [clean_append_here hbase, ← hclean, clean, clean, hbase, hp, hnames]
    | cons m ms =>
        have hne : base ≠ [] := by
          rintro rfl
          cases hbase
        obtain ⟨happend, habsolute⟩ := names_append hne (List.cons_ne_nil m ms) hms
        show clean (base ++ 47 :: Text.joinWith [47] (m :: ms)) = p
        rw [clean, happend, habsolute, ← hnames, hbase, ← hp, ← clean, hclean]

section Faithful

variable {cwd : Text} (hcwd : isAbsolute cwd = true) {base p : Text}
include hcwd

theorem isAtOrBelow_iff :
    IsAtOrBelow (absolute cwd base) (absolute cwd p) ↔
      ∃ ms, names (absolute cwd p) = names (absolute cwd base) ++ ms := by
  rw [IsAtOrBelow, pieces_absolute hcwd, pieces_absolute hcwd]
  exact ⟨fun ⟨ms, h⟩ => ⟨ms, h.symm⟩, fun ⟨ms, h⟩ => ⟨ms, h.symm⟩⟩

theorem exists_inside? (h : IsAtOrBelow (absolute cwd base) (absolute cwd p)) :
    ∃ r, inside? cwd base p = some r ∧ LeadsFrom (absolute cwd base) (absolute cwd p) r := by
  obtain ⟨ms, hms⟩ := (isAtOrBelow_iff hcwd).mp h
  refine ⟨ofNames false ms, inside?_of_append hcwd hms, ?_⟩
  apply leadsFrom_ofNames
  · exact isAbsolute_absolute hcwd base
  · exact isAbsolute_absolute hcwd p
  · exact hms
  · exact clean_absolute cwd p

theorem inside?_eq_none (h : ¬ IsAtOrBelow (absolute cwd base) (absolute cwd p)) :
    inside? cwd base p = none := by
  apply inside?_of_not_prefix
  rintro ⟨ms, hms⟩
  exact h ((isAtOrBelow_iff hcwd).mpr ⟨ms, hms.symm⟩)

end Faithful

/-- From any working directory, the relative path to something at or below a directory stays in the
directory and leads there; anything else keeps its absolute form. A walker answers in the same way
for its root, except that it refuses what lies elsewhere. -/
theorem relative_faithful {cwd : Text} (hcwd : isAbsolute cwd = true) (base p : Text) :
    (IsAtOrBelow (absolute cwd base) (absolute cwd p) →
      LeadsFrom (absolute cwd base) (absolute cwd p) (relative cwd base p)) ∧
    (¬ IsAtOrBelow (absolute cwd base) (absolute cwd p) →
      relative cwd base p = absolute cwd p) ∧
    ∀ (w : Walker) (fs : FileSystem), fs.workingDirectory = cwd → w.root = base →
      (IsAtOrBelow (absolute cwd base) (absolute cwd p) →
        ∃ r, w.relative? fs p = some r ∧
          LeadsFrom (absolute cwd base) (absolute cwd p) r) ∧
      (¬ IsAtOrBelow (absolute cwd base) (absolute cwd p) → w.relative? fs p = none) := by
  refine ⟨?_, ?_, ?_⟩
  · intro hbelow
    obtain ⟨r, hr, hleads⟩ := exists_inside? hcwd hbelow
    rw [relative, hr]
    exact hleads
  · intro hapart
    rw [relative, inside?_eq_none hcwd hapart]
    rfl
  · rintro w fs rfl rfl
    exact ⟨exists_inside? hcwd, inside?_eq_none hcwd⟩

/-- Below `/w/a` stands a name that begins with two dots, and beside it a directory whose name
begins with that of `/w/a`. -/
theorem relative_faithful_dotted :
    isAbsolute (bytes "/w") = true ∧
    relative (bytes "/w") (bytes "./a//b/..") (bytes "a/./..x/y/") = bytes "..x/y" ∧
    LeadsFrom (bytes "/w/a") (bytes "/w/a/..x/y") (bytes "..x/y") ∧
    relative (bytes "/w") (bytes "./a//b/..") (bytes "ab/y") = bytes "/w/ab/y" := by
  have hcwd : isAbsolute (bytes "/w") = true := rfl
  have hbelow := (relative_faithful hcwd (bytes "./a//b/..") (bytes "a/./..x/y/")).1
  have hapart := (relative_faithful hcwd (bytes "./a//b/..") (bytes "ab/y")).2.1
  refine ⟨hcwd, by decide +kernel, ?_, ?_⟩
  · exact hbelow (by unfold IsAtOrBelow; decide +kernel)
  · exact hapart (by unfold IsAtOrBelow; decide +kernel)

end LineReview.Path
