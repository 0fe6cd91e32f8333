import LineReview.CommandLine.Setup
import LineReview.Proofs.FileSystem.Moves
import LineReview.Proofs.Report.Lines
import LineReview.Proofs.Scan.Results
import LineReview.Proofs.Scan.Sequential
import LineReview.Proofs.Walk.Files
import Mathlib.Data.List.Infix

/-!
# The root of a scan

The argument of a scan is accepted when it leads to a folder, links followed.
The walk looks at its root without following a link at the end, and spells what
lies below with the steps of the root carried out. So a root is walked when it is
no link itself and its shortest spelling leads to the same folder. Then the
walk lists the same files as from the folder that the root leads to
(`root_scanned`). A link to a folder is accepted as well, but nothing below it is
reviewed (`link_root_passes`).
-/

namespace LineReview

/-! ## Roots of folders -/

namespace FileSystem

instance (p : Text) : Decidable (IsAcceptable p) :=
  decidable_of_iff (0 ∉ p ∧ p ≠ [] ∧ ¬ maxPath ≤ p.length)
    ⟨fun h => ⟨h.1, h.2.1, h.2.2⟩, fun h => ⟨h.no_zero, h.ne_nil, h.short⟩⟩

theorem locate_followed {fs : FileSystem} {p : Text} {pos : List Text} {n : Node}
    (h : fs.locate false p = .ok (pos, some n)) (hnot : ∀ target, n ≠ .link target) :
    fs.locate true p = .ok (pos, some n) := by
  obtain ⟨haccept, hreach, hslash⟩ := locate_eq_ok_iff.mp h
  refine locate_eq_ok_iff.mpr ⟨haccept, ?_, hslash⟩
  cases hlast : decide (p.getLast? = some 47) with
  | true => rwa [hlast] at hreach
  | false =>
      rw [hlast] at hreach
      exact hreach.followed hnot

/-- A folder that a path leads to is met at the path itself, unless a link stands there. -/
theorem lstat_eq_of_locate {fs : FileSystem} {p : Text} {pos : List Text} {n : Node}
    (h : fs.locate true p = .ok (pos, some n)) (hself : ∀ target, fs.lstat p ≠ .ok (.link target)) :
    fs.lstat p = .ok n := by
  obtain ⟨q, x, hx⟩ := locate_unfollowed h
  have hlstat : fs.lstat p = .ok x := by rw [lstat, lookup_eq_ok_iff.mpr ⟨q, hx⟩]
  have hnot : ∀ target, x ≠ .link target := by
    rintro target rfl
    exact hself target hlstat
  have hsame := (locate_followed hx hnot).symm.trans h
  cases hsame
  exact hlstat

theorem normal_position {root x : Node} {pos : List Text} (hproper : root.IsProper)
    (hget : root.get? pos = some x) : Path.Normal true pos.reverse := by
  have hnil : Path.Normal true ([] : List Text).reverse := trivial
  have happend := Path.normal_append hnil fun m hm => ((hproper.get? hget).2 m hm).isName
  rwa [List.nil_append] at happend

/-- The names of a position in a proper tree lead there from the root. -/
theorem locate_position {fs : FileSystem} {pos : List Text} {es : Entries}
    (hproper : fs.root.IsProper) (hget : fs.root.get? pos = some (.folder es))
    (haccept : IsAcceptable (Path.ofNames true pos)) (follow : Bool) :
    fs.locate follow (Path.ofNames true pos) = .ok (pos, some (.folder es)) := by
  have hnames := (hproper.get? hget).2
  have hnormal := normal_position hproper hget
  have hpieces : pieces (Path.ofNames true pos) = pos := by
    by_cases hnil : pos = []
    · rw [hnil]
      decide
    · exact pieces_ofNames hnormal hnil
  have hreach : Reaches fs.root (follow || decide ((Path.ofNames true pos).getLast? = some 47))
      maxLinks [] pos (pos.reverse ++ []) (some (.folder es)) :=
    reaches_get? rfl (fun m hm => (hnames m hm).isEntryName) hget nofun
  refine locate_eq_ok_iff.mpr ⟨haccept, ?_, ?_⟩
  · rw [hpieces, startOf, Path.isAbsolute_ofNames hnormal]
    rwa [List.append_nil] at hreach
  · rintro _ x ⟨⟩
    exact ⟨es, rfl⟩

end FileSystem

namespace Walker

section

variable {w : Walker} {fs : FileSystem} {es : Entries}

/-- The folder that a root leads to is walked from there, whatever the root itself looks like. -/
theorem isRooted_position {pos : List Text} (hproper : fs.root.IsProper)
    (hget : fs.root.get? pos = some (.folder es)) (hroot : w.root = Path.ofNames true pos)
    (haccept : FileSystem.IsAcceptable (Path.clean w.root)) : w.IsRooted fs es := by
  have hnormal := FileSystem.normal_position hproper hget
  have hclean : Path.clean w.root = w.root := by
    rw [Path.clean, hroot, Path.isAbsolute_ofNames hnormal, Path.names_ofNames hnormal]
  rw [hclean, hroot] at haccept
  have hlocate := FileSystem.locate_position hproper hget haccept
  constructor
  · rw [hroot, FileSystem.lstat, FileSystem.lookup_eq_ok_iff.mpr ⟨pos, hlocate false⟩]
  · rw [hclean, hroot]
    exact FileSystem.list_eq_ok_iff.mpr ⟨pos, hlocate true⟩

/-- A root is walked when it is no link itself and its shortest spelling leads to the same
folder. -/
theorem isRooted_of_locate {pos : List Text}
    (hfound : fs.locate true w.root = .ok (pos, some (.folder es)))
    (hself : ∀ target, fs.lstat w.root ≠ .ok (.link target))
    (hclean : fs.locate true (Path.clean w.root) = fs.locate true w.root) : w.IsRooted fs es :=
  ⟨FileSystem.lstat_eq_of_locate hfound hself,
    FileSystem.list_eq_ok_iff.mpr ⟨pos, hclean.trans hfound⟩⟩

/-! ## Walks that nothing hinders -/

/-- Nothing but their extensions keeps files out of a walk: the rule files include all that is on
the way to them, and the folders have paths that can be followed. -/
structure IsUnhindered (w : Walker) (fs : FileSystem) (es : Entries) : Prop where
  root : FileSystem.IsAcceptable (Path.clean w.root)
  files : ∀ k ∈ es.leaves, w.includes fs (Path.ofNames false k) false = .ok true
  folders : ∀ k ∈ es.leaves, ∀ js ∈ k.dropLast.inits,
    w.includes fs (Path.ofNames false js) true = .ok true
  short : ∀ k ∈ es.leaves, ∀ js ∈ k.dropLast.inits,
    FileSystem.IsAcceptable (Path.below w.root js)

/-- Without rule files only the length of paths matters. -/
theorem isUnhindered_of_bare (hbare : w.ignoreFile = none)
    (hroot : FileSystem.IsAcceptable (Path.clean w.root))
    (hshort : ∀ k ∈ es.leaves, ∀ js ∈ k.dropLast.inits,
      FileSystem.IsAcceptable (Path.below w.root js)) : w.IsUnhindered fs es := by
  have hincludes (p : Text) (isFolder : Bool) : w.includes fs p isFolder = .ok true := by
    rw [includes, hbare]
  exact ⟨hroot, fun k _ => hincludes _ _, fun k _ js _ => hincludes _ _, hshort⟩

theorem IsUnhindered.opens (h : w.IsUnhindered fs es) (hroot : w.IsRooted fs es)
    (hproper : es.IsProper) {k js : List Text} (hk : k ∈ es.leaves) (hjs : js <+: k)
    (hne : js ≠ k) : w.opens fs js = true := by
  obtain ⟨t, rfl⟩ := hjs
  have ht : t ≠ [] := by
    rintro rfl
    exact hne (List.append_nil js).symm
  by_cases hnil : js = []
  · rw [hnil]
    rfl
  have hfolder : (Node.folder es).IsProper := hproper
  obtain ⟨x, hx, _⟩ := (Node.mem_leaves hfolder).mp hk
  obtain ⟨es', hes⟩ := Node.folder_of_get?_append ht hx
  have hmem : js ∈ (js ++ t).dropLast.inits := by
    rw [List.mem_inits, List.dropLast_append_of_ne_nil ht]
    exact List.prefix_append _ _
  obtain ⟨pos, hlocate⟩ := FileSystem.list_eq_ok_iff.mp hroot.clean
  have hlist := FileSystem.list_below hlocate hnil (hfolder.get? hes).2 hes (h.short _ hk js hmem)
  rw [Walker.opens, h.folders _ hk js hmem, hlist]
  simp [Except.toOption, Except.isOk, Except.toBool]

/-- A walk that nothing hinders lists every leaf with one of the extensions. -/
theorem IsUnhindered.files_items (h : w.IsUnhindered fs es) (hroot : w.IsRooted fs es)
    (hproper : es.IsProper) :
    WalkItem.files (w.items fs) =
      (es.leaves.filter fun k => PathRule.hasExtension w.extensions (Path.ofNames false k)).map
        (Path.below w.root) := by
  rw [hroot.files hproper]
  congr 1
  refine List.filter_congr ?_
  intro k hk
  rw [Bool.eq_iff_iff, yields_iff, List.nil_append, wants, h.files k hk]
  constructor
  · rintro ⟨hwants, _⟩
    exact (Bool.and_eq_true_iff.mp hwants).1
  · intro hext
    refine ⟨Bool.and_eq_true_iff.mpr ⟨hext, rfl⟩, ?_⟩
    intro js hjs hne
    exact h.opens hroot hproper hk hjs hne

/-- From the root, the paths of such a walk are the names of the leaves. -/
theorem IsUnhindered.relatives (h : w.IsUnhindered fs es) (hroot : w.IsRooted fs es)
    (hproper : es.IsProper) :
    (WalkItem.files (w.items fs)).map (w.relative? fs) =
      (es.leaves.filter fun k => PathRule.hasExtension w.extensions (Path.ofNames false k)).map
        fun k => some (Path.ofNames false k) := by
  rw [h.files_items hroot hproper, List.map_map]
  refine List.map_congr_left ?_
  intro k hk
  obtain ⟨hne, hnames⟩ := hproper.of_mem_leaves (List.mem_filter.mp hk).1
  exact relative?_below w fs hne hnames

end

/-- A walker differs from one for another root in the root only. -/
theorem make_root (root root' : Text) (o : WalkOptions) :
    Walker.make root' o = (Walker.make root o).map fun w => { w with root := root' } := by
  unfold Walker.make
  dsimp only [bind, Except.bind, pure, Except.pure, throw, throwThe, MonadExceptOf.throw]
  generalize (if o.extensions.isEmpty = true then WalkOptions.standardExtensions
    else o.extensions) = given
  generalize given.filterMap PathRule.extension? = patterns
  cases patterns.isEmpty with
  | true => rfl
  | false =>
      cases (patterns.mapM (PathRule.read true)).mapError WalkerError.badExtension with
      | error e => rfl
      | ok extensions =>
          by_cases hbare : o.ignoreFile = []
          · simp only [if_pos hbare]
            rfl
          · simp only [if_neg hbare]
            cases RuleFile.name? o.ignoreFile <;> rfl

theorem root_of_make {root : Text} {o : WalkOptions} {w : Walker} (h : Walker.make root o = .ok w) :
    w.root = root := by
  have hsame := make_root root root o
  rw [h] at hsame
  exact congrArg Walker.root (Except.ok.inj hsame)

end Walker

theorem Setup.of_rootOf {fs : FileSystem} {operands : List Text} {root : Text}
    (h : Setup.rootOf fs operands = .ok root) :
    ∃ pos es, fs.locate true root = .ok (pos, some (.folder es)) := by
  cases operands with
  | nil => cases h
  | cons p rest =>
      rw [rootOf] at h
      split at h
      · cases h
      rw [FileSystem.stat] at h
      cases hlookup : fs.lookup true p with
      | error e =>
          rw [hlookup] at h
          cases h
      | ok n =>
          obtain ⟨pos, hlocate⟩ := FileSystem.lookup_eq_ok_iff.mp hlookup
          rw [hlookup] at h
          cases n with
          | file c => cases h
          | link t => cases h
          | folder es =>
              cases h
              exact ⟨pos, es, hlocate⟩

/-! ## Scans of a root -/

theorem Reviewer.isAcceptable_of_file {r : Reviewer} {fs : FileSystem} {path : Text}
    {ds : List Diagnostic} (h : r.file fs path = some (.ok ds)) : FileSystem.IsAcceptable path := by
  rw [Reviewer.file, Reviewer.load] at h
  cases hread : fs.read path with
  | error e =>
      rw [hread] at h
      cases h
  | ok content =>
      obtain ⟨_, hlocate⟩ := FileSystem.read_eq_ok_iff.mp hread
      exact (FileSystem.locate_eq_ok_iff.mp hlocate).1

/-- When all files passed, every file of the run was reviewed without a finding. -/
theorem Scan.Run.IsScanOf.file_of_passed {r : Scan.Run} {w : Walker} {fs : FileSystem}
    (h : r.IsScanOf w fs) {o : Report.TextOptions}
    (htext : r.result.report.text o = bytes "all files passed\n") {path : Text}
    (hpath : path ∈ WalkItem.files (w.items fs)) :
    r.options.reviewer.file fs path = some (.ok []) := by
  have hagrees := h.trusting.agrees
  have hends := ends_of_agrees h.uncancelled h.isOver hagrees
  obtain ⟨hfiles, hfailures, _⟩ := result_of_agrees h.uncancelled h.isOver hagrees
  rw [Ends, h.files, h.paths] at hends
  rw [h.files, h.paths] at hfiles hfailures
  have hsome : ∀ f ∈ r.result.files, f.diagnostics ≠ [] := by
    intro f hf
    rw [hfiles] at hf
    exact Reviewer.diagnostics_of_listed hf
  have hclean := (Report.text_eq_passed_iff (r := r.result.report) hsome).mp htext
  rw [Report.isClean, Bool.and_eq_true, List.isEmpty_iff, List.isEmpty_iff] at hclean
  obtain ⟨hnone, hproblems⟩ := hclean
  have hlisted := List.filterMap_eq_nil_iff.mp (hfiles.symm.trans hnone) path hpath
  have hfailed := List.filterMap_eq_nil_iff.mp
    (hfailures.symm.trans (List.map_eq_nil_iff.mp hproblems)) path hpath
  rw [Reviewer.listed?] at hlisted
  rw [Reviewer.failure?] at hfailed
  obtain ⟨x, hfile⟩ := Option.isSome_iff_exists.mp (hends path hpath)
  cases x with
  | error e =>
      rw [hfile] at hfailed
      cases hfailed
  | ok ds =>
      rw [hfile] at hlisted
      cases ds with
      | nil => exact hfile
      | cons d ds => cases hlisted

section Roots

variable {fs : FileSystem} {operands : List Text} {root : Text} {o : WalkOptions} {w : Walker}

/-- A root that is accepted leads to a folder. When it is no link itself and its shortest spelling
leads to the same folder, the scan goes through the same files, in the same order, as from that
folder; and when it says that all files passed, every file with one of the extensions is free of
findings. -/
theorem root_scanned (haccepted : Setup.rootOf fs operands = .ok root)
    (hmake : Walker.make root o = .ok w) (hproper : fs.root.IsProper)
    (hself : ∀ target, fs.lstat root ≠ .ok (.link target))
    (hclean : fs.locate true (Path.clean root) = fs.locate true root) :
    ∃ pos es w', fs.locate true root = .ok (pos, some (.folder es)) ∧
      Walker.make (Path.ofNames true pos) o = .ok w' ∧
      (w.IsUnhindered fs es → w'.IsUnhindered fs es →
        (WalkItem.files (w.items fs)).map (w.relative? fs) =
          (WalkItem.files (w'.items fs)).map (w'.relative? fs) ∧
        ∀ r : Scan.Run, r.IsScanOf w fs →
          ∀ format, r.result.report.text format = bytes "all files passed\n" →
          ∀ ns x, (Node.folder es).get? ns = some x → x.isFolder = false →
            PathRule.hasExtension w.extensions (Path.ofNames false ns) = true →
            r.options.reviewer.file fs (Path.below root ns) = some (.ok []) ∧
            ∀ content, x = .file content →
              r.options.reviewer.source (Path.below root ns)
                (.ofDisk (Path.below root ns) content) = some (.ok [])) := by
  obtain ⟨pos, es, hfound⟩ := Setup.of_rootOf haccepted
  obtain rfl := Walker.root_of_make hmake
  have hmake' := Walker.make_root w.root (Path.ofNames true pos) o
  rw [hmake] at hmake'
  refine ⟨pos, es, { w with root := Path.ofNames true pos }, hfound, hmake', ?_⟩
  intro hfree hfree'
  have hget := FileSystem.get?_of_locate hfound
  have hentries : es.IsProper := (hproper.get? hget).1
  have hroot := Walker.isRooted_of_locate hfound hself hclean
  have hroot' := Walker.isRooted_position hproper hget rfl hfree'.root
  refine ⟨(hfree.relatives hroot hentries).trans (hfree'.relatives hroot' hentries).symm, ?_⟩
  intro r hscan format htext ns x hx hleaf hext
  have hfolder : (Node.folder es).IsProper := hentries
  have hmem : ns ∈ es.leaves := (Node.mem_leaves hfolder).mpr ⟨x, hx, hleaf⟩
  have hpath : Path.below w.root ns ∈ WalkItem.files (w.items fs) := by
    rw [hfree.files_items hroot hentries]
    exact List.mem_map_of_mem (List.mem_filter.mpr ⟨hmem, hext⟩)
  have hfile := hscan.file_of_passed htext hpath
  refine ⟨hfile, ?_⟩
  rintro content rfl
  have hlocate : fs.locate true (Path.below w.root ns) = .ok (pos ++ ns, some (.file content)) :=
    FileSystem.locate_below (hclean.trans hfound) (hentries.of_mem_leaves hmem).1
      (hfolder.get? hx).2 hx nofun (Reviewer.isAcceptable_of_file hfile)
  rwa [Reviewer.file, Reviewer.load_of_locate hlocate] at hfile

end Roots

section Sample

def linkedEntries (content : Text) : Entries :=
  .cons (bytes "a.cpp") (.file content)
    (.cons (bytes "sub") (.folder (.cons (bytes "b.h") (.file []) .nil)) .nil)

/-- A folder with two files, and a link to it. -/
def linkedFiles (content : Text) : FileSystem :=
  { root := .folder (.cons (bytes "d") (.folder (linkedEntries content))
      (.cons (bytes "l") (.link (bytes "d")) .nil))
    here := [] }

theorem make_standard (root : Text) :
    Walker.make root { ignoreFile := WalkOptions.standardIgnoreFile } = .ok (.standard root) := by
  have hhere : Walker.make [46] { ignoreFile := WalkOptions.standardIgnoreFile } =
      .ok (.standard [46]) := by
    decide +kernel
  rw [Walker.make_root [46], hhere]
  rfl

theorem isUnhindered_linked {root : Text} (hroot : root = bytes "./d/" ∨ root = bytes "/d") :
    (Walker.standard root).IsUnhindered (linkedFiles []) (linkedEntries []) := by
  rcases hroot with rfl | rfl
  · exact ⟨by decide +kernel, by decide +kernel, by decide +kernel, by decide +kernel⟩
  · exact ⟨by decide +kernel, by decide +kernel, by decide +kernel, by decide +kernel⟩

theorem root_scanned_folder :
    Setup.rootOf (linkedFiles []) [bytes "./d/"] = .ok (bytes "./d/") ∧
    (WalkItem.files ((Walker.standard (bytes "./d/")).items (linkedFiles []))).map
        ((Walker.standard (bytes "./d/")).relative? (linkedFiles [])) =
      (WalkItem.files ((Walker.standard (bytes "/d")).items (linkedFiles []))).map
        ((Walker.standard (bytes "/d")).relative? (linkedFiles [])) ∧
    ∃ r : Scan.Run, r.IsScanOf (.standard (bytes "./d/")) (linkedFiles []) ∧
      r.result.report.text {} = bytes "all files passed\n" ∧
      r.options.reviewer.file (linkedFiles []) (bytes "d/sub/b.h") = some (.ok []) := by
  have haccepted : Setup.rootOf (linkedFiles []) [bytes "./d/"] = .ok (bytes "./d/") := rfl
  have hlocate : (linkedFiles []).locate true (bytes "./d/") =
      .ok ([bytes "d"], some (.folder (linkedEntries []))) := rfl
  obtain ⟨pos, es, w', hfound, hmake, hall⟩ := root_scanned haccepted (make_standard _)
    (by decide +kernel) nofun rfl
  cases hlocate.symm.trans hfound
  cases (make_standard _).symm.trans hmake
  obtain ⟨hsame, hpassed⟩ := hall (isUnhindered_linked (.inl rfl)) (isUnhindered_linked (.inr rfl))
  obtain ⟨r, hoptions, hscan, _⟩ := TreeScan.exists_isScanOf {} { files := linkedFiles [] }
    .outside (.standard (bytes "./d/")) rfl rfl (by decide +kernel)
  obtain ⟨hfiles, hfailures, _⟩ :=
    Scan.Run.result_of_agrees hscan.uncancelled hscan.isOver hscan.trusting.agrees
  rw [hscan.files, hscan.paths, hoptions] at hfiles hfailures
  have hnone : r.result.files = [] := hfiles.trans (by decide +kernel)
  have hclean : r.result.failures = [] := hfailures.trans (by decide +kernel)
  have htext : r.result.report.text {} = bytes "all files passed\n" := by
    rw [ScanResult.report, hnone, hclean]
    rfl
  exact ⟨haccepted, hsame, r, hscan, htext,
    (hpassed r hscan {} htext [bytes "sub", bytes "b.h"] (.file []) rfl rfl (by decide +kernel)).1⟩

/-- A link to a folder is accepted as a root, but nothing below it is reviewed, and all files are
said to have passed. -/
theorem link_root_passes :
    let fs := linkedFiles (bytes "class foo {};\n")
    Setup.rootOf fs [bytes "l"] = .ok (bytes "l") ∧
    fs.locate true (bytes "l") = fs.locate true (bytes "/d") ∧
    WalkItem.files ((Walker.standard (bytes "l")).items fs) = [] ∧
    (TreeScan.run {} { files := fs } .outside (.standard (bytes "l"))).result.report.text {} =
      bytes "all files passed\n" ∧
    bytes "/d/a.cpp" ∈ WalkItem.files ((Walker.standard (bytes "/d")).items fs) ∧
    Reviewer.file {} fs (bytes "/d/a.cpp") = some (.ok
      [⟨.error, .className, 1, 7, bytes "class name must be PascalCase (got 'foo')"⟩]) := by
  refine ⟨rfl, rfl, ?_, ?_, ?_, ?_⟩
  · decide +kernel
  · decide +kernel
  · decide +kernel
  · decide +kernel

end Sample

end LineReview
