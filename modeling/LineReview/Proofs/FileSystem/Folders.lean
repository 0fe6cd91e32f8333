import LineReview.Proofs.FileSystem.Relative
import LineReview.Proofs.FileSystem.Walk

/-!
# What stands below a folder

A tree that a file system can hold is proper: in every folder the names can be
part of a path, and they stand in ascending order. The leaves of such a tree are
the positions of everything that is no folder, in the order of the tree.

A path below a folder leads to what stands at its names in the tree of that folder,
as long as the path is not too long (`locate_below`). In between there are only
folders; only at the end there may be a link, which is met when it is not followed.
-/

namespace LineReview

/-! ## Proper trees -/

/-- A name that an entry of a folder can have. -/
structure IsFileName (name : Text) : Prop where
  isName : Path.IsName name
  no_zero : 0 ∉ name
  short : ¬ FileSystem.maxName < name.length

theorem IsFileName.isEntryName {name : Text} (h : IsFileName name) :
    FileSystem.IsEntryName name :=
  ⟨h.short, h.isName.ne_here, h.isName.ne_up⟩

mutual

/-- A tree that a file system can hold. -/
def Node.IsProper : Node → Prop
  | .folder es => es.IsProper
  | .file _ => True
  | .link _ => True

/-- Names can be part of a path, and those that follow are greater. -/
def Entries.IsProper : Entries → Prop
  | .nil => True
  | .cons name x rest =>
    IsFileName name ∧ x.IsProper ∧ (∀ e ∈ rest.toList, Text.less name e.1 = true) ∧ rest.IsProper

end

instance (name : Text) : Decidable (IsFileName name) :=
  decidable_of_iff
    ((name ≠ [] ∧ name ≠ [46] ∧ name ≠ Path.up ∧ 47 ∉ name) ∧ 0 ∉ name ∧
      ¬ FileSystem.maxName < name.length)
    ⟨fun h => ⟨⟨h.1.1, h.1.2.1, h.1.2.2.1, h.1.2.2.2⟩, h.2.1, h.2.2⟩,
      fun h => ⟨⟨h.isName.ne_nil, h.isName.ne_here, h.isName.ne_up, h.isName.no_slash⟩, h.no_zero,
        h.short⟩⟩

mutual

def Node.decideIsProper : (x : Node) → Decidable x.IsProper
  | .folder es => es.decideIsProper
  | .file _ => .isTrue trivial
  | .link _ => .isTrue trivial

def Entries.decideIsProper : (es : Entries) → Decidable es.IsProper
  | .nil => .isTrue trivial
  | .cons name x rest =>
    have := x.decideIsProper
    have := rest.decideIsProper
    inferInstanceAs (Decidable (IsFileName name ∧ x.IsProper ∧
      (∀ e ∈ rest.toList, Text.less name e.1 = true) ∧ rest.IsProper))

end

instance (x : Node) : Decidable x.IsProper := x.decideIsProper

instance (es : Entries) : Decidable es.IsProper := es.decideIsProper

mutual

/-- The positions of everything but folders, in order. -/
def Node.leaves : Node → List (List Text)
  | .folder es => es.leaves
  | .file _ => [[]]
  | .link _ => [[]]

def Entries.leaves : Entries → List (List Text)
  | .nil => []
  | .cons name x rest => x.leaves.map (name :: ·) ++ rest.leaves

end

theorem Text.less_iff_lt {s t : Text} : less s t = true ↔ s < t := by
  fun_induction less s t with
  | case1 s => simp
  | case2 b t => simp
  | case3 a s b t ih => simp [List.cons_lt_cons_iff, ih]

theorem Text.less_irrefl (t : Text) : less t t = false :=
  Bool.eq_false_iff.mpr fun h => List.lt_irrefl t (less_iff_lt.mp h)

namespace Entries

theorem mem_toList_of_find? {name : Text} {x : Node} :
    ∀ {es : Entries}, es.find? name = some x → (name, x) ∈ es.toList
  | .cons n y rest, h => by
      rw [find?] at h
      split at h
      · rename_i hn
        cases h
        rw [hn]
        exact List.mem_cons_self
      · exact List.mem_cons_of_mem _ (mem_toList_of_find? h)

/-- In a proper folder no name comes twice. -/
theorem IsProper.find?_rest {name : Text} {x : Node} {rest : Entries}
    (h : (cons name x rest).IsProper) : rest.find? name = none := by
  by_contra hsome
  obtain ⟨y, hy⟩ := Option.ne_none_iff_exists'.mp hsome
  have hless := h.2.2.1 _ (mem_toList_of_find? hy)
  rw [Text.less_irrefl] at hless
  cases hless

theorem IsProper.find?_of_mem {name : Text} {x : Node} :
    ∀ {es : Entries}, es.IsProper → (name, x) ∈ es.toList → es.find? name = some x
  | .cons n y rest, h, hmem => by
      rw [toList, List.mem_cons, Prod.mk.injEq] at hmem
      rw [find?]
      rcases hmem with ⟨rfl, rfl⟩ | hmem
      · exact if_pos rfl
      · have hfind := find?_of_mem h.2.2.2 hmem
        have hne : n ≠ name := by
          rintro rfl
          rw [h.find?_rest] at hfind
          cases hfind
        rw [if_neg hne, hfind]

theorem IsProper.of_find? {name : Text} {x : Node} :
    ∀ {es : Entries}, es.IsProper → es.find? name = some x → IsFileName name ∧ x.IsProper
  | .cons n y rest, h, hfind => by
      rw [find?] at hfind
      split at hfind
      · rename_i hn
        cases hfind
        exact ⟨hn ▸ h.1, h.2.1⟩
      · exact of_find? h.2.2.2 hfind

end Entries

namespace Node

/-- What stands in a proper tree is proper, and so are the names that lead to it. -/
theorem IsProper.get? {n x : Node} {ms : List Text} (h : n.IsProper) (hx : n.get? ms = some x) :
    x.IsProper ∧ ∀ m ∈ ms, IsFileName m := by
  induction ms generalizing n with
  | nil =>
      cases hx
      exact ⟨h, nofun⟩
  | cons m ms ih =>
      cases n with
      | file c => cases hx
      | link t => cases hx
      | folder es =>
          rw [get?_cons] at hx
          obtain ⟨y, hy, hget⟩ := Option.bind_eq_some_iff.mp hx
          obtain ⟨hm, hyproper⟩ := Entries.IsProper.of_find? h hy
          obtain ⟨hxproper, hms⟩ := ih hyproper hget
          exact ⟨hxproper, List.forall_mem_cons.mpr ⟨hm, hms⟩⟩

end Node

mutual

theorem Node.mem_leaves : ∀ {x : Node}, x.IsProper → ∀ {k : List Text},
    k ∈ x.leaves ↔ ∃ y, x.get? k = some y ∧ y.isFolder = false
  | .folder es, h, k => by
      rw [Node.leaves, Entries.mem_leaves h]
      constructor
      · rintro ⟨n, y, m, rfl, hn, hm⟩
        obtain ⟨z, hz, hleaf⟩ := hm
        refine ⟨z, ?_, hleaf⟩
        rw [Node.get?_cons, Node.entries, hn]
        exact hz
      · rintro ⟨z, hz, hleaf⟩
        cases k with
        | nil =>
            cases hz
            cases hleaf
        | cons n m =>
            rw [Node.get?_cons] at hz
            obtain ⟨y, hy, hget⟩ := Option.bind_eq_some_iff.mp hz
            exact ⟨n, y, m, rfl, hy, z, hget, hleaf⟩
  | .file c, _, k => by
      rw [Node.leaves, List.mem_singleton]
      cases k with
      | nil => exact ⟨fun _ => ⟨_, rfl, rfl⟩, fun _ => rfl⟩
      | cons n m => simp [Node.get?]
  | .link t, _, k => by
      rw [Node.leaves, List.mem_singleton]
      cases k with
      | nil => exact ⟨fun _ => ⟨_, rfl, rfl⟩, fun _ => rfl⟩
      | cons n m => simp [Node.get?]

theorem Entries.mem_leaves : ∀ {es : Entries}, es.IsProper → ∀ {k : List Text},
    k ∈ es.leaves ↔ ∃ n x m, k = n :: m ∧ es.find? n = some x ∧
      ∃ y, x.get? m = some y ∧ y.isFolder = false
  | .nil, _, k => by simp [Entries.leaves, Entries.find?]
  | .cons name x rest, h, k => by
      rw [Entries.leaves, List.mem_append, List.mem_map, Entries.mem_leaves h.2.2.2]
      constructor
      · rintro (⟨m, hm, rfl⟩ | ⟨n, y, m, rfl, hn, hm⟩)
        · exact ⟨name, x, m, rfl, if_pos rfl, (Node.mem_leaves h.2.1).mp hm⟩
        · have hne : name ≠ n := by
            rintro rfl
            rw [h.find?_rest] at hn
            cases hn
          exact ⟨n, y, m, rfl, (if_neg hne).trans hn, hm⟩
      · rintro ⟨n, y, m, rfl, hn, hm⟩
        rw [Entries.find?] at hn
        split at hn
        · rename_i hname
          cases hn
          exact .inl ⟨m, (Node.mem_leaves h.2.1).mpr hm, hname ▸ rfl⟩
        · exact .inr ⟨n, y, m, rfl, hn, hm⟩

end

theorem Entries.IsProper.of_mem_leaves {es : Entries} {k : List Text} (h : es.IsProper)
    (hk : k ∈ es.leaves) : k ≠ [] ∧ ∀ m ∈ k, Path.IsName m := by
  have hfolder : (Node.folder es).IsProper := h
  obtain ⟨x, hx, _⟩ := (Node.mem_leaves hfolder).mp hk
  obtain ⟨n, _, ks, rfl, _⟩ := (Entries.mem_leaves h).mp hk
  exact ⟨List.cons_ne_nil n ks, fun m hm => ((hfolder.get? hx).2 m hm).isName⟩

/-! ## Following a path below a folder -/

namespace FileSystem

theorem startOf_below (fs : FileSystem) (dir : Text) {ms : List Text}
    (hms : ∀ m ∈ ms, Path.IsName m) : startOf fs (Path.below dir ms) = startOf fs dir := by
  rw [startOf, startOf, Path.isAbsolute_below dir hms]

theorem startOf_clean (fs : FileSystem) (dir : Text) :
    startOf fs (Path.clean dir) = startOf fs dir := by
  rw [startOf, startOf, Path.isAbsolute_clean]

/-- The names of a folder lead where its shortest spelling leads. -/
theorem reaches_names {fs : FileSystem} {dir : Text} {pos : List Text} {n : Node}
    (h : fs.locate true (Path.clean dir) = .ok (pos, some n)) :
    Reaches fs.root true maxLinks (startOf fs dir) (Path.names dir) pos.reverse (some n) := by
  have hnormal := Path.normal_names dir
  obtain ⟨_, hreach, _⟩ := locate_eq_ok_iff.mp h
  rw [Bool.true_or, startOf_clean] at hreach
  -- a folder without names is the root or the working directory, which has a spelling of its own
  by_cases hnil : Path.names dir = []
  · rw [Path.clean, hnil] at hreach
    rw [hnil]
    cases habsolute : Path.isAbsolute dir with
    | true =>
        rw [habsolute] at hreach
        exact hreach
    | false =>
        rw [habsolute] at hreach
        have hhere : pieces (Path.ofNames false []) = [[46]] := by decide
        rw [hhere] at hreach
        generalize pos.reverse = q at hreach ⊢
        cases hreach with
        | here _ hrest => exact hrest
        | lastLink hname => exact absurd rfl hname.ne_here
        | link hname => exact absurd rfl hname.ne_here
        | down hname => exact absurd rfl hname.ne_here
  · rwa [Path.clean, pieces_ofNames hnormal hnil] at hreach

/-- Following a path below a folder is following its names from the folder on. -/
theorem walk_below {fs : FileSystem} {dir : Text} {pos ms : List Text} {es : Entries}
    (h : fs.locate true (Path.clean dir) = .ok (pos, some (.folder es))) (hne : ms ≠ [])
    (hms : ∀ m ∈ ms, Path.IsName m) (follow : Bool) :
    ∃ links, walk fs.root follow maxLinks (startOf fs (Path.below dir ms))
        (pieces (Path.below dir ms)) =
      walk fs.root follow links pos.reverse ms := by
  have hsome : Path.names dir ++ ms ≠ [] := List.append_ne_nil_of_right_ne_nil _ hne
  rw [startOf_below fs dir hms, Path.below, pieces_ofNames (Path.normal_below dir hms) hsome]
  exact walk_append (reaches_names h) hne follow

theorem get?_reverse_reverse {fs : FileSystem} {p : Text} {follow : Bool} {pos : List Text}
    {n : Node} (h : fs.locate follow p = .ok (pos, some n)) :
    fs.root.get? pos.reverse.reverse = some n := by
  rw [List.reverse_reverse]
  exact get?_of_locate h

/-- A path below a folder leads to what stands at its names, unless a link at the end is to be
followed. -/
theorem locate_below {fs : FileSystem} {dir : Text} {pos ms : List Text} {es : Entries} {x : Node}
    (h : fs.locate true (Path.clean dir) = .ok (pos, some (.folder es))) (hne : ms ≠ [])
    (hms : ∀ m ∈ ms, IsFileName m) (hx : (Node.folder es).get? ms = some x) {follow : Bool}
    (hend : ∀ target, x = .link target → follow = false)
    (haccept : IsAcceptable (Path.below dir ms)) :
    fs.locate follow (Path.below dir ms) = .ok (pos ++ ms, some x) := by
  have hnames : ∀ m ∈ ms, Path.IsName m := fun m hm => (hms m hm).isName
  have hlast := Path.getLast?_below dir hne hnames
  refine locate_eq_ok_iff.mpr ⟨haccept, ?_, fun hslash => absurd hslash hlast⟩
  obtain ⟨links, hwalk⟩ := walk_below h hne hnames follow
  rw [decide_eq_false hlast, Bool.or_false, ← walk_eq_ok_iff, hwalk, walk_eq_ok_iff,
    List.reverse_append]
  exact reaches_get? (get?_reverse_reverse h) (fun m hm => (hms m hm).isEntryName) hx hend

/-! ## Listing folders -/

theorem list_eq_ok_iff {fs : FileSystem} {p : Text} {es : Entries} :
    fs.list p = .ok es ↔ ∃ pos, fs.locate true p = .ok (pos, some (.folder es)) := by
  rw [← lookup_eq_ok_iff, list]
  cases h : fs.lookup true p with
  | error e => simp
  | ok n => cases n <;> simp

/-- A folder is listed by its path as it stands in the tree. -/
theorem list_below {fs : FileSystem} {dir : Text} {pos ms : List Text} {es es' : Entries}
    (h : fs.locate true (Path.clean dir) = .ok (pos, some (.folder es))) (hne : ms ≠ [])
    (hms : ∀ m ∈ ms, IsFileName m) (hx : (Node.folder es).get? ms = some (.folder es'))
    (haccept : IsAcceptable (Path.below dir ms)) : fs.list (Path.below dir ms) = .ok es' :=
  list_eq_ok_iff.mpr ⟨_, locate_below h hne hms hx (fun _ heq => by cases heq) haccept⟩

theorem isAcceptable_of_list {fs : FileSystem} {p : Text} {es : Entries} (h : fs.list p = .ok es) :
    IsAcceptable p := by
  obtain ⟨_, hlocate⟩ := list_eq_ok_iff.mp h
  exact (locate_eq_ok_iff.mp hlocate).1

end FileSystem

end LineReview
