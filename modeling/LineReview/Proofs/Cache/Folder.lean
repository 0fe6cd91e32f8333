import LineReview.Cache.Store
import LineReview.Proofs.FileSystem.Folders

/-!
# The folder of a cache

Every key has a file of its own below the folder of the cache, at the position
`entryNames`. A path below the folder leads where its names say, as long as no links
stand there: what is found at the end of a path is what stands at its names in the
tree (`IsAt.locate_below`, `IsAt.locate_of_get?`).
-/

namespace LineReview

namespace Text

theorem hexDigit_range : ∀ n < 16, 48 ≤ hexDigit n ∧ hexDigit n ≠ 47 ∧ hexDigit n ≠ 116 := by
  decide

theorem hexDigit_inj : ∀ m < 16, ∀ n < 16, hexDigit m = hexDigit n → m = n := by
  decide

theorem hex_cons (b : UInt8) (t : Text) :
    hex (b :: t) = hexDigit (b.toNat / 16) :: hexDigit (b.toNat % 16) :: hex t := by
  simp [hex]

theorem length_hex (t : Text) : (hex t).length = 2 * t.length := by
  induction t with
  | nil => rfl
  | cons b t ih =>
      rw [hex_cons, List.length_cons, List.length_cons, ih, List.length_cons]
      omega

theorem of_mem_hex {t : Text} {b : UInt8} (hb : b ∈ hex t) : 48 ≤ b := by
  obtain ⟨c, _, hc⟩ := List.mem_flatMap.mp hb
  have hc256 := c.toNat_lt
  rcases List.mem_cons.mp hc with rfl | hc
  · exact (hexDigit_range _ (by omega)).1
  · rw [List.mem_singleton] at hc
    rw [hc]
    exact (hexDigit_range _ (by omega)).1

theorem hex_inj {s t : Text} (h : hex s = hex t) : s = t := by
  induction s generalizing t with
  | nil =>
      cases t with
      | nil => rfl
      | cons b t =>
          rw [hex_cons] at h
          cases h
  | cons a s ih =>
      cases t with
      | nil =>
          rw [hex_cons] at h
          cases h
      | cons b t =>
          rw [hex_cons, hex_cons, List.cons.injEq, List.cons.injEq] at h
          obtain ⟨hhigh, hlow, hrest⟩ := h
          have ha := a.toNat_lt
          have hb := b.toNat_lt
          have hdiv := hexDigit_inj _ (by omega) _ (by omega) hhigh
          have hmod := hexDigit_inj _ (by omega) _ (by omega) hlow
          have hab : a = b := UInt8.toNat_inj.mp (by omega)
          rw [hab, ih hrest]

end Text

theorem Digest.length_sha256 (m : Text) : (Digest.sha256 m).length = 32 := rfl

namespace Cache

/-! ## Names below the folder -/

/-- The path with the given names behind the folder. -/
def below (c : Cache) (ms : List Text) : Text :=
  Path.ofNames (Path.isAbsolute c.folder) (Path.names c.folder ++ ms)

section Below

variable (c : Cache) {ms : List Text}

theorem getLast?_below (hne : ms ≠ []) (hms : ∀ m ∈ ms, Path.IsName m) :
    (c.below ms).getLast? ≠ some 47 :=
  Path.getLast?_below c.folder hne hms

/-- One more name is joined with a slash. -/
theorem join_below (hms : ∀ m ∈ ms, Path.IsName m) {m : Text} (hm : Path.IsName m) :
    Path.join (c.below ms) m = c.below (ms ++ [m]) :=
  Path.join_below hms hm

end Below

/-! ## Where entries stand -/

/-- The names from the folder of a cache to the folder of an entry. -/
def folderNames (key : Text) : List Text := [bytes "files", (Text.hex key).take 2]

/-- The names from the folder of a cache to an entry. -/
def entryNames (key : Text) : List Text :=
  [bytes "files", (Text.hex key).take 2, Text.hex key ++ bytes ".mp"]

/-- The names to a temporary file. -/
def temporaryNames (key : Text) (number : Nat) : List Text :=
  folderNames key ++ [bytes "tmp-" ++ Text.decimal number]

theorem entryNames_eq (key : Text) :
    entryNames key = folderNames key ++ [Text.hex key ++ bytes ".mp"] := rfl

theorem entryNames_ne_nil (key : Text) : entryNames key ≠ [] := List.cons_ne_nil _ _

theorem temporaryNames_ne_nil (key : Text) (number : Nat) : temporaryNames key number ≠ [] :=
  List.cons_ne_nil _ _

theorem entryNames_inj {k k' : Text} (h : entryNames k = entryNames k') : k = k' := by
  simp only [entryNames, List.cons.injEq] at h
  exact Text.hex_inj (List.append_cancel_right h.2.2.1)

/-- No entry has the name of a temporary file. -/
theorem temporaryNames_ne_entryNames {key : Text} (hkey : key.length = 32) (number : Nat) :
    temporaryNames key number ≠ entryNames key := by
  intro h
  rw [temporaryNames, entryNames_eq] at h
  replace h := List.append_cancel_left h
  rw [List.cons.injEq] at h
  replace h := h.1
  obtain ⟨b, t, rfl⟩ := List.exists_cons_of_length_pos (by omega : 0 < key.length)
  have htmp : bytes "tmp-" = [116, 109, 112, 45] := by decide
  rw [htmp, Text.hex_cons] at h
  have hhead := (List.cons.inj h).1
  exact (Text.hexDigit_range (b.toNat / 16) (by have := b.toNat_lt; omega)).2.2 hhead.symm

theorem isName_files : Path.IsName (bytes "files") :=
  ⟨by decide, by decide, by decide, by decide⟩

/-- Two hexadecimal digits are a name. -/
theorem isName_take_hex {key : Text} (hkey : key.length = 32) :
    Path.IsName ((Text.hex key).take 2) := by
  obtain ⟨b, t, rfl⟩ := List.exists_cons_of_length_pos (by omega : 0 < key.length)
  rw [Text.hex_cons]
  have hhigh := Text.hexDigit_range (b.toNat / 16) (by have := b.toNat_lt; omega)
  have hlow := Text.hexDigit_range (b.toNat % 16) (by omega)
  have h46 : Text.hexDigit (b.toNat / 16) ≠ 46 := by
    intro h
    rw [h] at hhigh
    revert hhigh
    decide
  refine ⟨by simp, by simp, ?_, ?_⟩
  · simp [Path.up, h46]
  · simp [Ne.symm hhigh.2.1, Ne.symm hlow.2.1]

theorem isName_entry (key : Text) : Path.IsName (Text.hex key ++ bytes ".mp") := by
  have hmp : bytes ".mp" = [46, 109, 112] := by decide
  rw [hmp]
  refine ⟨by simp, ?_, ?_, ?_⟩
  · intro h
    simpa using congrArg List.length h
  · intro h
    simpa [Path.up] using congrArg List.length h
  · rw [List.mem_append, not_or]
    refine ⟨fun hb => ?_, by decide⟩
    have hlow := Text.of_mem_hex hb
    revert hlow
    decide

theorem isName_temporary (number : Nat) : Path.IsName (bytes "tmp-" ++ Text.decimal number) := by
  have htmp : bytes "tmp-" = [116, 109, 112, 45] := by decide
  rw [htmp]
  refine ⟨by simp, by simp, by simp [Path.up], ?_⟩
  rw [List.mem_append, not_or]
  exact ⟨by decide, Text.slash_notMem_decimal number⟩

theorem isName_of_mem_folderNames {key : Text} (hkey : key.length = 32) :
    ∀ m ∈ folderNames key, Path.IsName m := by
  simp only [folderNames, List.forall_mem_cons, List.not_mem_nil, false_imp_iff, implies_true,
    and_true]
  exact ⟨isName_files, isName_take_hex hkey⟩

theorem isName_of_mem_entryNames {key : Text} (hkey : key.length = 32) :
    ∀ m ∈ entryNames key, Path.IsName m := by
  rw [entryNames_eq, List.forall_mem_append, List.forall_mem_singleton]
  exact ⟨isName_of_mem_folderNames hkey, isName_entry key⟩

theorem isName_of_mem_temporaryNames {key : Text} (hkey : key.length = 32) (number : Nat) :
    ∀ m ∈ temporaryNames key number, Path.IsName m := by
  rw [temporaryNames, List.forall_mem_append, List.forall_mem_singleton]
  exact ⟨isName_of_mem_folderNames hkey, isName_temporary number⟩

theorem isEntryName_of_mem_entryNames {key : Text} (hkey : key.length = 32) :
    ∀ m ∈ entryNames key, FileSystem.IsEntryName m := by
  intro m hm
  have hname := isName_of_mem_entryNames hkey m hm
  refine ⟨?_, hname.ne_here, hname.ne_up⟩
  have hfiles : (bytes "files").length = 5 := by decide
  have hmp : (bytes ".mp").length = 3 := by decide
  simp only [entryNames, List.mem_cons, List.not_mem_nil, or_false] at hm
  rcases hm with rfl | rfl | rfl
  · rw [hfiles]
    decide
  · rw [List.length_take, FileSystem.maxName]
    omega
  · rw [List.length_append, Text.length_hex, hkey, hmp]
    decide

theorem entryFolder_eq (c : Cache) {key : Text} (hkey : key.length = 32) :
    c.entryFolder key = c.below (folderNames key) := by
  have hspell : bytes "files/" ++ (Text.hex key).take 2 = Text.joinWith [47] (folderNames key) := by
    have hfiles : bytes "files/" = bytes "files" ++ [47] := by decide
    rw [hfiles]
    rfl
  rw [entryFolder, hspell]
  exact Path.join_names c.folder (List.cons_ne_nil _ _) (isName_of_mem_folderNames hkey)

/-- The file of an entry, by its names. -/
theorem entryPath_eq (c : Cache) {key : Text} (hkey : key.length = 32) :
    c.entryPath key = c.below (entryNames key) := by
  rw [entryPath, entryFolder_eq c hkey,
    c.join_below (isName_of_mem_folderNames hkey) (isName_entry key)]
  rfl

theorem temporaryPath_eq (c : Cache) {key : Text} (hkey : key.length = 32) (number : Nat) :
    c.temporaryPath key number = c.below (temporaryNames key number) := by
  have hslash : bytes "/tmp-" = 47 :: bytes "tmp-" := by decide
  have hne : Path.names c.folder ++ folderNames key ≠ [] :=
    List.append_ne_nil_of_right_ne_nil _ (List.cons_ne_nil _ _)
  have hspell := Path.ofNames_append_name (Path.isAbsolute c.folder) hne
    (bytes "tmp-" ++ Text.decimal number)
  rw [List.append_assoc] at hspell
  rw [temporaryPath, entryFolder_eq c hkey, hslash, List.append_assoc, List.cons_append]
  exact hspell.symm

/-! ## The folder of a cache -/

/-- The folder of a cache stands at a position, and no links stand below it. -/
structure IsAt (c : Cache) (fs : FileSystem) (pos : List Text) (n : Node) : Prop where
  found : fs.locate true (Path.clean c.folder) = .ok (pos, some n)
  isFolder : n.isFolder = true
  linkFree : n.LinkFree

theorem IsAt.folder {c : Cache} {fs : FileSystem} {pos : List Text} {n : Node}
    (h : c.IsAt fs pos n) : ∃ es, n = .folder es := by
  have hfolder := h.isFolder
  cases n with
  | folder es => exact ⟨es, rfl⟩
  | file t => cases hfolder
  | link t => cases hfolder

theorem IsAt.get? {c : Cache} {fs : FileSystem} {pos : List Text} {n : Node}
    (h : c.IsAt fs pos n) : fs.root.get? pos = some n := FileSystem.get?_of_locate h.found

theorem IsAt.get?_append {c : Cache} {fs : FileSystem} {pos : List Text} {n : Node}
    (h : c.IsAt fs pos n) (q : List Text) : fs.root.get? (pos ++ q) = n.get? q := by
  rw [Node.get?_append, h.get?, Option.bind_some]

/-- Following a path below the folder is following its names from the folder on. -/
theorem IsAt.walk_below {c : Cache} {fs : FileSystem} {pos ms : List Text} {n : Node}
    (h : c.IsAt fs pos n) (hne : ms ≠ []) (hms : ∀ m ∈ ms, Path.IsName m) (follow : Bool) :
    ∃ links, FileSystem.walk fs.root follow FileSystem.maxLinks
        (FileSystem.startOf fs (c.below ms)) (FileSystem.pieces (c.below ms)) =
      FileSystem.walk fs.root follow links pos.reverse ms := by
  obtain ⟨es, rfl⟩ := h.folder
  exact FileSystem.walk_below h.found hne hms follow

/-- What a path below the folder leads to stands where the names say. -/
theorem IsAt.locate_below {c : Cache} {fs : FileSystem} {pos q ms : List Text} {n : Node}
    {o : Option Node} (h : c.IsAt fs pos n) (hne : ms ≠ []) (hms : ∀ m ∈ ms, Path.IsName m)
    {follow : Bool} (hlocate : fs.locate follow (c.below ms) = .ok (q, o)) :
    q = pos ++ ms ∧ n.get? ms = o ∧ ∀ m ∈ ms, FileSystem.IsEntryName m := by
  obtain ⟨_, hreach, _⟩ := FileSystem.locate_eq_ok_iff.mp hlocate
  rw [decide_eq_false (c.getLast?_below hne hms), Bool.or_false, ← FileSystem.walk_eq_ok_iff]
    at hreach
  obtain ⟨links, hwalk⟩ := h.walk_below hne hms follow
  rw [hwalk, FileSystem.walk_eq_ok_iff] at hreach
  have hpos : fs.root.get? pos.reverse.reverse = some n := by
    rw [List.reverse_reverse]
    exact h.get?
  obtain ⟨hq, hget, hnames⟩ := FileSystem.reaches_linkFree hpos h.linkFree hms hreach
  refine ⟨?_, hget, hnames⟩
  rw [← List.reverse_append, List.reverse_inj] at hq
  exact hq

theorem IsAt.locate_of_get? {c : Cache} {fs : FileSystem} {pos ms : List Text} {n x : Node}
    (h : c.IsAt fs pos n) (hne : ms ≠ []) (hms : ∀ m ∈ ms, Path.IsName m)
    (hnames : ∀ m ∈ ms, FileSystem.IsEntryName m) {follow : Bool}
    (haccept : FileSystem.IsAcceptable (c.below ms)) (hx : n.get? ms = some x) :
    fs.locate follow (c.below ms) = .ok (pos ++ ms, some x) := by
  have hlast := c.getLast?_below hne hms
  have hpos : fs.root.get? pos.reverse.reverse = some n := by
    rw [List.reverse_reverse]
    exact h.get?
  refine FileSystem.locate_eq_ok_iff.mpr ⟨haccept, ?_, fun hslash => absurd hslash hlast⟩
  obtain ⟨links, hwalk⟩ := h.walk_below hne hms follow
  rw [decide_eq_false hlast, Bool.or_false, ← FileSystem.walk_eq_ok_iff, hwalk,
    FileSystem.walk_eq_ok_iff, List.reverse_append]
  exact FileSystem.reaches_of_get? hpos h.linkFree hnames hx

/-- An entry stands at its position below the folder, or nowhere. -/
theorem IsAt.locate_entry {c : Cache} {fs : FileSystem} {pos q : List Text} {n : Node}
    {o : Option Node} (h : c.IsAt fs pos n) {key : Text} (hkey : key.length = 32) {follow : Bool}
    (hlocate : fs.locate follow (c.entryPath key) = .ok (q, o)) :
    q = pos ++ entryNames key ∧ n.get? (entryNames key) = o := by
  rw [entryPath_eq c hkey] at hlocate
  obtain ⟨hq, hget, _⟩ :=
    h.locate_below (entryNames_ne_nil key) (isName_of_mem_entryNames hkey) hlocate
  exact ⟨hq, hget⟩

/-- The folder stays where it is when nothing changes its place and no links are added. -/
theorem IsAt.of_shape {c : Cache} {fs fs' : FileSystem} {pos : List Text} {n : Node}
    (h : c.IsAt fs pos n) (hhere : fs'.here = fs.here) (hshape : fs.root.Shape fs'.root)
    (hlinks : ∀ q t, fs'.root.get? q = some (.link t) → fs.root.get? q = some (.link t)) :
    ∃ n', c.IsAt fs' pos n' := by
  obtain ⟨es, rfl⟩ := h.folder
  obtain ⟨es', hfound⟩ := FileSystem.locate_shape h.found hhere hshape
  have hget' := FileSystem.get?_of_locate hfound
  refine ⟨.folder es', hfound, rfl, ?_⟩
  intro q t hq
  have hroot' : fs'.root.get? (pos ++ q) = some (.link t) := by
    rw [Node.get?_append, hget', Option.bind_some, hq]
  have hroot := hlinks _ _ hroot'
  rw [h.get?_append] at hroot
  exact h.linkFree q t hroot

end Cache

end LineReview
