import LineReview.Proofs.Walk.Roots

/-!
# The order of a walk

Without rule files, a walk through a tree that can be read lists every leaf with one of the
extensions (`walk_ordered`). The leaves stand in the order of their names, compared name by name
from the root on (`Entries.pairwise_leaves`). This is not the order of the paths as texts: `a/z`
comes before `a!`, although a slash is greater than an exclamation mark.

Nothing goes wrong on such a walk (`troubles_visitAll`). So whoever stops after some
files has seen the first files of the whole walk and no trouble.
-/

namespace LineReview

/-! ## Leaves in order -/

mutual

theorem Node.pairwise_leaves : ∀ {x : Node}, x.IsProper → x.leaves.Pairwise (· < ·)
  | .file _, _ => List.pairwise_singleton _ _
  | .link _, _ => List.pairwise_singleton _ _
  | .folder _, h => Entries.pairwise_leaves h

theorem Entries.pairwise_leaves : ∀ {es : Entries}, es.IsProper → es.leaves.Pairwise (· < ·)
  | .nil, _ => List.Pairwise.nil
  | .cons name x rest, h => by
      rw [Entries.leaves, List.pairwise_append]
      refine ⟨?_, Entries.pairwise_leaves h.2.2.2, ?_⟩
      · rw [List.pairwise_map]
        exact (Node.pairwise_leaves h.2.1).imp fun hlt =>
          List.cons_lt_cons_iff.mpr (.inr ⟨rfl, hlt⟩)
      · intro a ha b hb
        obtain ⟨k, _, rfl⟩ := List.mem_map.mp ha
        obtain ⟨n, y, m, rfl, hfind, _⟩ := (Entries.mem_leaves h.2.2.2).mp hb
        have hless := h.2.2.1 _ (Entries.mem_toList_of_find? hfind)
        exact List.cons_lt_cons_iff.mpr (.inl (Text.less_iff_lt.mp hless))

end

/-! ## Walks that are broken off -/

namespace WalkItem

theorem troubles_append (a b : List WalkItem) : troubles (a ++ b) = troubles a ++ troubles b :=
  List.filterMap_append

theorem upTo_file (n : Nat) (p : Text) (r : List WalkItem) :
    upTo (n + 1) (file p :: r) = file p :: upTo n r := by
  cases n with
  | zero => cases r <;> rfl
  | succ n => rfl

theorem upTo_prefix (n : Nat) (items : List WalkItem) : upTo n items <+: items := by
  induction items generalizing n with
  | nil => cases n <;> exact List.nil_prefix
  | cons i r ih =>
      cases n with
      | zero => exact List.nil_prefix
      | succ n =>
          cases i with
          | file p =>
              rw [upTo_file]
              exact List.cons_prefix_cons.mpr ⟨rfl, ih n⟩
          | trouble m => exact List.cons_prefix_cons.mpr ⟨rfl, ih (n + 1)⟩

theorem files_upTo (n : Nat) (items : List WalkItem) :
    files (upTo n items) = (files items).take n := by
  induction items generalizing n with
  | nil => cases n <;> rfl
  | cons i r ih =>
      cases n with
      | zero => rfl
      | succ n =>
          cases i with
          | file p =>
              rw [upTo_file]
              exact congrArg (p :: ·) (ih n)
          | trouble m => exact ih (n + 1)

/-- Where nothing goes wrong, nothing has gone wrong after some of the files. -/
theorem troubles_upTo {items : List WalkItem} (h : troubles items = []) (n : Nat) :
    troubles (upTo n items) = [] := by
  obtain ⟨r, hr⟩ := upTo_prefix n items
  rw [← hr, troubles_append] at h
  exact (List.append_eq_nil_iff.mp h).1

end WalkItem

/-! ## Walks on which nothing goes wrong -/

namespace Walker

section

variable {w : Walker} {fs : FileSystem}

theorem troubles_visitFile {ms : List Text} (hne : ms ≠ []) (hms : ∀ m ∈ ms, Path.IsName m) :
    WalkItem.troubles (w.visitFile fs (Path.below w.root ms)) = [] := by
  rw [visitFile, relative?_below w fs hne hms]
  dsimp only
  split <;> rfl

theorem judge_bare (hbare : w.ignoreFile = none) {ms : List Text} (hne : ms ≠ [])
    (hms : ∀ m ∈ ms, Path.IsName m) : w.judge fs (Path.below w.root ms) = ([], true) := by
  rw [judge, relative?_below w fs hne hms]
  dsimp only
  rw [includes, hbare]

mutual

theorem troubles_visit (hbare : w.ignoreFile = none) {ms : List Text} (hne : ms ≠ [])
    (hms : ∀ m ∈ ms, Path.IsName m) :
    ∀ {x : Node}, x.IsProper →
      (∀ k es, x.get? k = some (.folder es) → (fs.list (Path.below w.root (ms ++ k))).isOk = true) →
      WalkItem.troubles (w.visit fs (Path.below w.root ms) x) = []
  | .file _, _, _ => troubles_visitFile hne hms
  | .link _, _, _ => troubles_visitFile hne hms
  | .folder es, h, hlist => by
      have hself := hlist [] es rfl
      rw [List.append_nil] at hself
      rw [visit, judge_bare hbare hne hms, List.nil_append, if_pos rfl]
      cases hentries : fs.list (Path.below w.root ms) with
      | error e =>
          rw [hentries] at hself
          cases hself
      | ok _ =>
          exact troubles_visitAll hbare hms (fun m hm => Path.join_below hms hm) h
            fun n k es' => hlist (n :: k) es'

theorem troubles_visitAll (hbare : w.ignoreFile = none) {ms : List Text} {path : Text}
    (hms : ∀ m ∈ ms, Path.IsName m)
    (hpath : ∀ m, Path.IsName m → Path.join path m = Path.below w.root (ms ++ [m])) :
    ∀ {es : Entries}, es.IsProper →
      (∀ n k es', (Node.folder es).get? (n :: k) = some (.folder es') →
        (fs.list (Path.below w.root (ms ++ n :: k))).isOk = true) →
      WalkItem.troubles (w.visitAll fs path es) = []
  | .nil, _, _ => rfl
  | .cons name x rest, h, hlist => by
      have hname := h.1.isName
      have hnames : ∀ m ∈ ms ++ [name], Path.IsName m := by
        intro m hm
        rcases List.mem_append.mp hm with hm | hm
        · exact hms m hm
        · exact List.mem_singleton.mp hm ▸ hname
      have hfirst : WalkItem.troubles (w.visit fs (Path.below w.root (ms ++ [name])) x) = [] := by
        refine troubles_visit hbare (List.concat_ne_nil name ms) hnames h.2.1 ?_
        intro k es' hk
        rw [List.append_assoc, List.singleton_append]
        refine hlist name k es' ?_
        rw [Node.get?_cons, Node.entries, Entries.find?, if_pos rfl]
        exact hk
      have hrest : WalkItem.troubles (w.visitAll fs path rest) = [] := by
        refine troubles_visitAll hbare hms hpath h.2.2.2 ?_
        intro n k es' hk
        refine hlist n k es' ?_
        have hne : name ≠ n := by
          rintro rfl
          rw [Node.get?_cons, Node.entries, h.find?_rest] at hk
          cases hk
        rw [Node.get?_cons, Node.entries, Entries.find?, if_neg hne]
        exact hk
      rw [visitAll, WalkItem.troubles_append, hpath name hname, hfirst, hrest, List.append_nil]

end

/-- Every folder of the tree below the root can be listed by its path. -/
def IsReadable (w : Walker) (fs : FileSystem) (es : Entries) : Prop :=
  ∀ ns es', (Node.folder es).get? ns = some (.folder es') →
    (fs.list (Path.below w.root ns)).isOk = true

variable {es : Entries}

theorem IsReadable.isAcceptable (h : w.IsReadable fs es) {ns : List Text} {es' : Entries}
    (hget : (Node.folder es).get? ns = some (.folder es')) :
    FileSystem.IsAcceptable (Path.below w.root ns) := by
  have hok := h ns es' hget
  cases hlist : fs.list (Path.below w.root ns) with
  | ok l => exact FileSystem.isAcceptable_of_list hlist
  | error e =>
      rw [hlist] at hok
      cases hok

/-- Without rule files nothing hinders a walk through a tree that can be read. -/
theorem IsReadable.isUnhindered (h : w.IsReadable fs es) (hbare : w.ignoreFile = none)
    (hproper : es.IsProper) : w.IsUnhindered fs es := by
  have hfolder : (Node.folder es).IsProper := hproper
  have hroot : FileSystem.IsAcceptable (Path.below w.root []) := h.isAcceptable rfl
  rw [Path.below_nil] at hroot
  refine isUnhindered_of_bare hbare hroot ?_
  intro k hk js hjs
  obtain ⟨x, hx, _⟩ := (Node.mem_leaves hfolder).mp hk
  obtain ⟨t, ht⟩ := (List.mem_inits _ _).mp hjs
  -- the last name of the leaf is behind the folder
  have hk : k = js ++ (t ++ [k.getLast (hproper.of_mem_leaves hk).1]) := by
    rw [← List.append_assoc, ht, List.dropLast_append_getLast]
  rw [hk] at hx
  obtain ⟨es', hes⟩ := Node.folder_of_get?_append (List.concat_ne_nil _ t) hx
  exact h.isAcceptable hes

theorem IsReadable.troubles_items (h : w.IsReadable fs es) (hbare : w.ignoreFile = none)
    (hroot : w.IsRooted fs es) (hproper : es.IsProper) : WalkItem.troubles (w.items fs) = [] := by
  rw [hroot.items hproper]
  have hnames : ∀ m ∈ ([] : List Text), Path.IsName m := nofun
  exact troubles_visitAll hbare hnames (fun m hm => Path.join_eq_below w.root hm) hproper
    fun n k es' => h (n :: k) es'

/-- Below a root that is a folder and whose shortest spelling leads there too, a walk without rule
files lists exactly the leaves with one of the extensions, each of them once, in the order of their
names from the root on. Whoever takes the first files only has seen nothing go wrong. -/
theorem walk_ordered (hroot : w.IsRooted fs es) (hproper : es.IsProper)
    (hbare : w.ignoreFile = none) (hread : w.IsReadable fs es) :
    ∃ ks : List (List Text),
      WalkItem.files (w.items fs) = ks.map (Path.below w.root) ∧
      (WalkItem.files (w.items fs)).map (w.relative? fs) =
        ks.map (fun k => some (Path.ofNames false k)) ∧
      (∀ k, k ∈ ks ↔ (∃ x, (Node.folder es).get? k = some x ∧ x.isFolder = false) ∧
        PathRule.hasExtension w.extensions (Path.ofNames false k) = true) ∧
      ks.Pairwise (· < ·) ∧
      (WalkItem.files (w.items fs)).Nodup ∧
      ∀ n, WalkItem.files (WalkItem.upTo n (w.items fs)) =
          (WalkItem.files (w.items fs)).take n ∧
        WalkItem.troubles (WalkItem.upTo n (w.items fs)) = [] := by
  have hfree := hread.isUnhindered hbare hproper
  have hfiles := hfree.files_items hroot hproper
  have hfolder : (Node.folder es).IsProper := hproper
  have horder := (Entries.pairwise_leaves hproper).filter
    fun k => PathRule.hasExtension w.extensions (Path.ofNames false k)
  refine ⟨_, hfiles, hfree.relatives hroot hproper, ?_, horder, ?_, ?_⟩
  · intro k
    rw [List.mem_filter, ← Node.mem_leaves hfolder, Node.leaves]
  · rw [hfiles, List.Nodup, List.pairwise_map]
    refine horder.imp_of_mem ?_
    intro k k' hk hk' hlt heq
    have hsame := Path.below_inj (hproper.of_mem_leaves (List.mem_filter.mp hk).1).2
      (hproper.of_mem_leaves (List.mem_filter.mp hk').1).2 heq
    exact List.lt_irrefl k' (hsame ▸ hlt)
  · intro n
    exact ⟨WalkItem.files_upTo n _,
      WalkItem.troubles_upTo (hread.troubles_items hbare hroot hproper) n⟩

end

section Sample

/-- The walker for a root with the standard extensions and no rule files. -/
def bare (root : Text) : Walker := { standard root with ignoreFile := none }

def orderedSub : Entries := .cons (bytes "z.cpp") (.file []) .nil

def orderedEntries : Entries :=
  .cons (bytes "a") (.folder orderedSub)
    (.cons (bytes "a!.cpp") (.file [])
      (.cons (bytes "l.h") (.link (bytes "a")) .nil))

def orderedFiles : FileSystem :=
  { root := .folder (.cons (bytes "src") (.folder orderedEntries) .nil), here := [] }

theorem isReadable_ordered : (bare (bytes "./src/")).IsReadable orderedFiles orderedEntries := by
  have hsub : ∀ k es', (Node.folder orderedSub).get? k = some (.folder es') → k = [] := by
    intro k es' h
    rcases k with _ | ⟨m, k⟩
    · rfl
    · rw [Node.get?_cons, Node.entries, orderedSub, Entries.find?] at h
      split at h
      · cases k <;> cases h
      · cases h
  intro ns es' h
  rcases ns with _ | ⟨n, k⟩
  · decide +kernel
  · rw [Node.get?_cons, Node.entries, orderedEntries, Entries.find?] at h
    split at h
    case isTrue hn =>
      rw [← hn, hsub k es' h]
      decide +kernel
    case isFalse =>
      -- the other entries are no folders
      rw [Entries.find?] at h
      split at h
      · cases k <;> cases h
      · rw [Entries.find?] at h
        split at h
        · cases k <;> cases h
        · cases h

/-- A folder comes before a file whose name goes on behind its own, and a link is a file like
others. -/
theorem walk_ordered_between :
    Walker.make (bytes "./src/") {} = .ok (bare (bytes "./src/")) ∧
    (WalkItem.files ((bare (bytes "./src/")).items orderedFiles)).Nodup ∧
    WalkItem.files (WalkItem.upTo 2 ((bare (bytes "./src/")).items orderedFiles)) =
      [bytes "src/a/z.cpp", bytes "src/a!.cpp"] ∧
    WalkItem.troubles (WalkItem.upTo 2 ((bare (bytes "./src/")).items orderedFiles)) = [] := by
  have hroot : (bare (bytes "./src/")).IsRooted orderedFiles orderedEntries := ⟨rfl, rfl⟩
  obtain ⟨ks, _, _, _, _, hnodup, hfirst⟩ :=
    walk_ordered hroot (by decide +kernel) rfl isReadable_ordered
  refine ⟨by decide +kernel, hnodup, ?_, (hfirst 2).2⟩
  rw [(hfirst 2).1]
  decide +kernel

/-- The root is the folder `x` by way of a link into it. -/
def detourEntries : Entries :=
  .cons (bytes "d") (.folder (.cons (bytes "f.cpp") (.file []) .nil))
    (.cons (bytes "y") .empty .nil)

def detourFiles : FileSystem :=
  { root := .folder (.cons (bytes "a") (.link (bytes "x/y"))
      (.cons (bytes "d") (.folder (.cons (bytes "g.cpp") (.file []) .nil))
        (.cons (bytes "x") (.folder detourEntries)
          (.cons (bytes "y") .empty .nil))))
    here := [] }

/-- A root may be a folder that can be read with all that is in it, and yet a walk lists a file from
elsewhere in place of the one below the root: the way back out of a link is taken for the way back
to where the link stands. -/
theorem walk_leaves_root :
    detourFiles.lstat (bytes "a/..") = .ok (.folder detourEntries) ∧
    detourEntries.IsProper ∧
    (detourFiles.list (bytes "a/../d")).isOk = true ∧
    (detourFiles.list (bytes "a/../y")).isOk = true ∧
    (Node.folder detourEntries).get? [bytes "d", bytes "f.cpp"] = some (.file []) ∧
    PathRule.hasExtension (bare (bytes "a/..")).extensions (bytes "d/f.cpp") = true ∧
    WalkItem.files ((bare (bytes "a/..")).items detourFiles) = [bytes "d/g.cpp"] ∧
    (bare (bytes "a/..")).relative? detourFiles (bytes "d/g.cpp") = some (bytes "d/g.cpp") ∧
    (Node.folder detourEntries).get? [bytes "d", bytes "g.cpp"] = none :=
  ⟨rfl, by decide +kernel, by decide +kernel, by decide +kernel, rfl, by decide +kernel,
    by decide +kernel, by decide +kernel, rfl⟩

end Sample

end Walker

end LineReview
