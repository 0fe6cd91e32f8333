import LineReview.Walk
import LineReview.Proofs.FileSystem.Folders

/-!
# The files of a walk

Below a root that is a folder, a walk lists leaves of the tree in their order
(`IsRooted.files`): those that the walker wants and that it comes to, because it goes on into
every folder on the way. A folder is entered unless the rule files exclude it or it cannot be
listed.

Whether a walker covers a file is decided by the path of the file alone. So a walk lists
no file that the walker does not cover, but it may leave out one that it covers: a
rule about a name that excludes a folder says nothing about the files in it. The two agree
exactly where every folder on the way is entered (`mem_files_iff_covers`).
-/

namespace LineReview

namespace WalkItem

theorem files_append (a b : List WalkItem) : files (a ++ b) = files a ++ files b :=
  List.filterMap_append

end WalkItem

namespace Walker

/-- Does the walk go on into the folder with the given names? The root is not judged; any other
folder must not be excluded, and it has to be listed. -/
def opens (w : Walker) (fs : FileSystem) (ms : List Text) : Bool :=
  ms.isEmpty ||
    ((w.includes fs (Path.ofNames false ms) true).toOption != some false &&
      (fs.list (Path.below w.root ms)).isOk)

/-- Does the walk go on from the names `ms` by the given ones, and does it want the file that they
lead to? -/
def yields (w : Walker) (fs : FileSystem) : List Text → List Text → Bool
  | ms, [] => w.wants fs (Path.ofNames false ms)
  | ms, n :: ks => w.opens fs ms && yields w fs (ms ++ [n]) ks

theorem yields_iff (w : Walker) (fs : FileSystem) (ms ks : List Text) :
    w.yields fs ms ks = true ↔
      w.wants fs (Path.ofNames false (ms ++ ks)) = true ∧
      ∀ js, js <+: ks → js ≠ ks → w.opens fs (ms ++ js) = true := by
  induction ks generalizing ms with
  | nil =>
      rw [yields, List.append_nil]
      refine ⟨fun h => ⟨h, ?_⟩, fun h => h.1⟩
      intro js hjs hne
      exact absurd (List.prefix_nil.mp hjs) hne
  | cons n ks ih =>
      rw [yields, Bool.and_eq_true, ih, List.append_assoc, List.singleton_append]
      constructor
      · rintro ⟨hopen, hwants, hon⟩
        refine ⟨hwants, ?_⟩
        intro js hjs hne
        cases js with
        | nil =>
            rw [List.append_nil]
            exact hopen
        | cons j js =>
            obtain ⟨rfl, hrest⟩ := List.cons_prefix_cons.mp hjs
            have hrest := hon js hrest (fun heq => hne (heq ▸ rfl))
            rwa [List.append_assoc, List.singleton_append] at hrest
      · rintro ⟨hwants, hon⟩
        refine ⟨?_, hwants, ?_⟩
        · have hhere := hon [] List.nil_prefix (List.cons_ne_nil n ks).symm
          rwa [List.append_nil] at hhere
        · intro js hjs hne
          rw [List.append_assoc, List.singleton_append]
          refine hon (n :: js) (List.cons_prefix_cons.mpr ⟨rfl, hjs⟩) ?_
          rintro ⟨⟩
          exact hne rfl

/-! ## Paths of a walk -/

theorem relative?_below (w : Walker) (fs : FileSystem) {ms : List Text} (hne : ms ≠ [])
    (hms : ∀ m ∈ ms, Path.IsName m) :
    w.relative? fs (Path.below w.root ms) = some (Path.ofNames false ms) :=
  Path.inside?_below rfl hne hms

theorem covers_below (w : Walker) (fs : FileSystem) {ms : List Text} (hne : ms ≠ [])
    (hms : ∀ m ∈ ms, Path.IsName m) :
    w.covers fs (Path.below w.root ms) = w.wants fs (Path.ofNames false ms) := by
  rw [covers, relative?_below w fs hne hms]
  rfl

theorem files_visitFile (w : Walker) (fs : FileSystem) {ms : List Text} (hne : ms ≠ [])
    (hms : ∀ m ∈ ms, Path.IsName m) :
    WalkItem.files (w.visitFile fs (Path.below w.root ms)) =
      ([[]].filter (w.yields fs ms)).map fun k => Path.below w.root (ms ++ k) := by
  rw [visitFile, relative?_below w fs hne hms]
  dsimp only
  cases hwants : w.wants fs (Path.ofNames false ms) with
  | true => simp [yields, hwants, WalkItem.files]
  | false => simp [yields, hwants, WalkItem.files]

/-- What is said about a folder names no file. -/
theorem files_judge (w : Walker) (fs : FileSystem) (path : Text) :
    WalkItem.files (w.judge fs path).1 = [] := by
  unfold judge
  split
  · rfl
  · split <;> rfl

theorem judge_below (w : Walker) (fs : FileSystem) {ms : List Text} (hne : ms ≠ [])
    (hms : ∀ m ∈ ms, Path.IsName m) :
    (w.judge fs (Path.below w.root ms)).2 =
      ((w.includes fs (Path.ofNames false ms) true).toOption != some false) := by
  rw [judge, relative?_below w fs hne hms]
  dsimp only
  cases w.includes fs (Path.ofNames false ms) true with
  | error e => rfl
  | ok isIncluded => cases isIncluded <;> rfl

/-! ## The walk of a tree -/

section

variable {w : Walker} {fs : FileSystem}

mutual

theorem files_visit {ms : List Text} (hne : ms ≠ []) (hms : ∀ m ∈ ms, Path.IsName m) :
    ∀ {x : Node}, x.IsProper →
      WalkItem.files (w.visit fs (Path.below w.root ms) x) =
        (x.leaves.filter (w.yields fs ms)).map fun k => Path.below w.root (ms ++ k)
  | .file c, _ => files_visitFile w fs hne hms
  | .link t, _ => files_visitFile w fs hne hms
  | .folder es, h => by
      rw [visit, WalkItem.files_append, files_judge, List.nil_append, Node.leaves]
      cases hopen : w.opens fs ms with
      | true =>
          have hentered := hopen
          rw [opens, List.isEmpty_eq_false_iff.mpr hne, Bool.false_or, Bool.and_eq_true,
            ← judge_below w fs hne hms] at hentered
          rw [if_pos hentered.1]
          cases hlist : fs.list (Path.below w.root ms) with
          | error e =>
              rw [hlist] at hentered
              cases hentered.2
          | ok _ =>
              exact files_visitAll hopen hms (fun m hm => Path.join_below hms hm) h
      | false =>
          -- the walk says at most what is wrong, and none of the leaves is yielded
          have hnone : es.leaves.filter (w.yields fs ms) = [] := by
            refine List.filter_eq_nil_iff.mpr ?_
            intro k hk
            obtain ⟨n, _, ks, rfl, _⟩ := (Entries.mem_leaves h).mp hk
            rw [yields, hopen]
            exact Bool.false_ne_true
          rw [hnone, List.map_nil]
          rw [opens, List.isEmpty_eq_false_iff.mpr hne, Bool.false_or, ← judge_below w fs hne hms]
            at hopen
          cases hjudge : (w.judge fs (Path.below w.root ms)).2 with
          | false => rfl
          | true =>
              rw [hjudge, Bool.true_and] at hopen
              rw [if_pos rfl]
              cases hlist : fs.list (Path.below w.root ms) with
              | error e => rfl
              | ok _ =>
                  rw [hlist] at hopen
                  cases hopen

theorem files_visitAll {ms : List Text} {path : Text} (hopen : w.opens fs ms = true)
    (hms : ∀ m ∈ ms, Path.IsName m)
    (hpath : ∀ m, Path.IsName m → Path.join path m = Path.below w.root (ms ++ [m])) :
    ∀ {es : Entries}, es.IsProper →
      WalkItem.files (w.visitAll fs path es) =
        (es.leaves.filter (w.yields fs ms)).map fun k => Path.below w.root (ms ++ k)
  | .nil, _ => rfl
  | .cons name x rest, h => by
      have hname := h.1.isName
      have hnames : ∀ m ∈ ms ++ [name], Path.IsName m := by
        intro m hm
        rcases List.mem_append.mp hm with hm | hm
        · exact hms m hm
        · exact List.mem_singleton.mp hm ▸ hname
      have hfirst := files_visit (List.concat_ne_nil name ms) hnames h.2.1
      have hrest := files_visitAll hopen hms hpath h.2.2.2
      have hstep : w.yields fs ms ∘ (name :: ·) = w.yields fs (ms ++ [name]) := by
        funext k
        show (w.opens fs ms && w.yields fs (ms ++ [name]) k) = w.yields fs (ms ++ [name]) k
        rw [hopen, Bool.true_and]
      rw [visitAll, WalkItem.files_append, hpath name hname, hfirst, hrest, Entries.leaves,
        List.filter_append, List.map_append, List.filter_map, List.map_map, hstep]
      congr 1
      refine List.map_congr_left ?_
      intro k _
      show Path.below w.root (ms ++ [name] ++ k) = Path.below w.root (ms ++ name :: k)
      rw [List.append_assoc, List.singleton_append]

end

/-! ## The walk of a root -/

/-- The root of the walker is itself a folder, with the given entries, and its shortest spelling
leads to the same folder. -/
structure IsRooted (w : Walker) (fs : FileSystem) (es : Entries) : Prop where
  lstat : fs.lstat w.root = .ok (.folder es)
  clean : fs.list (Path.clean w.root) = .ok es

/-- Folders are listed as they stand in the root. -/
theorem relisted_eq {root : Text} : ∀ {es : Entries},
    (∀ name es' l, (name, Node.folder es') ∈ es.toList →
      fs.list (Path.join root name) = .ok l → l = es') → relisted fs root es = es
  | .nil, _ => rfl
  | .cons name x rest, h => by
      have hrest := relisted_eq fun n es' l hmem => h n es' l (List.mem_cons_of_mem _ hmem)
      rw [relisted, hrest]
      cases x with
      | file c => rfl
      | link t => rfl
      | folder es' =>
          cases hlist : fs.list (Path.join root name) with
          | error e =>
              rw [relist, hlist]
              rfl
          | ok l =>
              rw [relist, hlist, h name es' l List.mem_cons_self hlist]
              rfl

theorem IsRooted.items {es : Entries} (h : w.IsRooted fs es) (hproper : es.IsProper) :
    w.items fs = w.visitAll fs w.root es := by
  obtain ⟨pos, hlocate⟩ := FileSystem.list_eq_ok_iff.mp h.clean
  rw [Walker.items, h.lstat]
  show w.visitAll fs w.root (relisted fs w.root es) = _
  rw [relisted_eq]
  intro name es' l hmem hlist
  have hfind := hproper.find?_of_mem hmem
  have hname := (hproper.of_find? hfind).1
  have hget : (Node.folder es).get? [name] = some (.folder es') := by
    rw [Node.get?_cons, Node.entries, hfind]
    rfl
  rw [Path.join_eq_below _ hname.isName] at hlist
  have hbelow := FileSystem.list_below hlocate (List.cons_ne_nil name [])
    (fun m hm => List.mem_singleton.mp hm ▸ hname) hget (FileSystem.isAcceptable_of_list hlist)
  rw [hlist] at hbelow
  exact Except.ok.inj hbelow

/-- The walk lists the leaves that it comes to and wants, in the order of the tree. -/
theorem IsRooted.files {es : Entries} (h : w.IsRooted fs es) (hproper : es.IsProper) :
    WalkItem.files (w.items fs) = (es.leaves.filter (w.yields fs [])).map (Path.below w.root) := by
  rw [h.items hproper]
  have hnames : ∀ m ∈ ([] : List Text), Path.IsName m := nofun
  exact files_visitAll rfl hnames (fun m hm => Path.join_eq_below w.root hm) hproper

/-- Below a root that is a folder, a walk lists exactly the files that the walker covers and whose
folders it enters one after the other. -/
theorem mem_files_iff_covers {es : Entries} (hroot : w.IsRooted fs es) (hproper : es.IsProper)
    {ns : List Text} {x : Node} (hentry : (Node.folder es).get? ns = some x)
    (hleaf : x.isFolder = false) :
    Path.below w.root ns ∈ WalkItem.files (w.items fs) ↔
      w.covers fs (Path.below w.root ns) = true ∧
      ∀ ms, ms <+: ns → ms ≠ ns → w.opens fs ms = true := by
  have hmem : ns ∈ es.leaves := Node.mem_leaves (x := .folder es) hproper |>.mpr ⟨x, hentry, hleaf⟩
  obtain ⟨hne, hnames⟩ := hproper.of_mem_leaves hmem
  rw [covers_below w fs hne hnames, hroot.files hproper, List.mem_map]
  have hyields := yields_iff w fs [] ns
  constructor
  · rintro ⟨k, hk, heq⟩
    obtain ⟨hkleaf, hkyields⟩ := List.mem_filter.mp hk
    -- the path determines the names
    rw [Path.below_inj (hproper.of_mem_leaves hkleaf).2 hnames heq] at hkyields
    exact hyields.mp hkyields
  · intro h
    exact ⟨ns, List.mem_filter.mpr ⟨hmem, hyields.mpr h⟩, rfl⟩

end

/-! ## A folder that is excluded by its name -/

section Sample

/-- The walker for a root with the standard settings. -/
def standard (root : Text) : Walker :=
  { root
    extensions := WalkOptions.standardExtensions.map fun e =>
      ⟨true, .name false (.many :: e.map fun b => .one b.toNat) false⟩
    ignoreFile := some WalkOptions.standardIgnoreFile }

def prunedEntries : Entries :=
  .cons (bytes ".codereviewignore") (.file (bytes "build\n"))
    (.cons (bytes "build") (.folder (.cons (bytes "a.cpp") (.file []) .nil))
      (.cons (bytes "src") (.folder (.cons (bytes "b.cpp") (.file []) .nil)) .nil))

def prunedFiles : FileSystem := { root := .folder prunedEntries, here := [] }

theorem mem_files_iff_covers_pruned :
    Walker.make (bytes ".") { ignoreFile := WalkOptions.standardIgnoreFile } =
      .ok (standard (bytes ".")) ∧
    (Path.below (bytes ".") [bytes "src", bytes "b.cpp"] ∈
        WalkItem.files ((standard (bytes ".")).items prunedFiles) ↔
      (standard (bytes ".")).covers prunedFiles
          (Path.below (bytes ".") [bytes "src", bytes "b.cpp"]) = true ∧
        ∀ ms, ms <+: [bytes "src", bytes "b.cpp"] → ms ≠ [bytes "src", bytes "b.cpp"] →
          (standard (bytes ".")).opens prunedFiles ms = true) := by
  have hroot : (standard (bytes ".")).IsRooted prunedFiles prunedEntries := ⟨rfl, rfl⟩
  exact ⟨by decide +kernel, mem_files_iff_covers hroot (by decide +kernel) rfl rfl⟩

/-- The walk leaves out a folder that is excluded by its name, but the walker covers the file in
it. -/
theorem covers_not_mem_files :
    prunedEntries.IsProper ∧
    (Node.folder prunedEntries).get? [bytes "build", bytes "a.cpp"] = some (.file []) ∧
    (standard (bytes ".")).covers prunedFiles (bytes "build/a.cpp") = true ∧
    bytes "build/a.cpp" ∉ WalkItem.files ((standard (bytes ".")).items prunedFiles) :=
  ⟨by decide +kernel, rfl, by decide +kernel, by decide +kernel⟩

end Sample

end Walker

end LineReview
