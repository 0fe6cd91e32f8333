import LineReview.Proofs.Cache.Folder
import LineReview.Proofs.Cache.RoundTrip
import LineReview.Proofs.FileSystem.Moves

/-!
# Entries of a cache

Storing an entry makes folders, writes a temporary file and gives it the name of the
entry. `putIn_cases` says what is left of this: folders that were added, and the
file of the entry if nothing failed on the way. So the stored entry is found under its key, and
all other keys keep theirs.
-/

namespace LineReview

namespace Cache

/-! ## What is found -/

theorem get_eq_some_iff_read {c : Cache} {fs : FileSystem} {key : Text} {e : CacheEntry} :
    c.get fs key = .ok (some e) ↔
      ∃ t, fs.read (c.entryPath key) = .ok t ∧ Packed.readEntry t = some e ∧
        e.schema = cacheSchema := by
  unfold get
  cases hread : fs.read (c.entryPath key) with
  | error r =>
      refine ⟨fun h => ?_, fun ⟨t, ht, _⟩ => nomatch ht⟩
      dsimp only at h
      split at h
      · cases h
      · split at h <;> cases h
  | ok t =>
      constructor
      · intro h
        cases hentry : Packed.readEntry t with
        | none => simp [hentry] at h
        | some d =>
            simp only [hentry] at h
            split at h
            case isTrue hschema =>
                cases h
                exact ⟨t, rfl, hentry, hschema⟩
            case isFalse => cases h
      · rintro ⟨t', ht', hentry, hschema⟩
        cases ht'
        simp [hentry, hschema]

/-- An entry is found when its file stands at its position and holds one of the present schema. -/
theorem get_eq_some_iff {c : Cache} {fs : FileSystem} {pos : List Text} {n : Node}
    (hat : c.IsAt fs pos n) {key : Text} (hkey : key.length = 32) {e : CacheEntry} :
    c.get fs key = .ok (some e) ↔
      FileSystem.IsAcceptable (c.entryPath key) ∧
        ∃ t, n.get? (entryNames key) = some (.file t) ∧ Packed.readEntry t = some e ∧
          e.schema = cacheSchema := by
  rw [get_eq_some_iff_read]
  constructor
  · rintro ⟨t, hread, hentry⟩
    obtain ⟨q, hlocate⟩ := FileSystem.read_eq_ok_iff.mp hread
    have haccept := (FileSystem.locate_eq_ok_iff.mp hlocate).1
    exact ⟨haccept, t, (hat.locate_entry hkey hlocate).2, hentry⟩
  · rintro ⟨haccept, t, hget, hentry⟩
    rw [entryPath_eq c hkey] at haccept ⊢
    refine ⟨t, FileSystem.read_eq_ok_iff.mpr ⟨pos ++ entryNames key, ?_⟩, hentry⟩
    exact hat.locate_of_get? (entryNames_ne_nil key) (isName_of_mem_entryNames hkey)
      (isEntryName_of_mem_entryNames hkey) haccept hget

/-! ## What storing leaves -/

theorem createTemporary_cases {c : Cache} {fs fs' : FileSystem} {key path : Text}
    {number : Nat → Nat} {tries i : Nat} {q : List Text}
    (h : c.createTemporary fs key number tries i = .ok (path, q, fs')) :
    ∃ k, path = c.temporaryPath key k ∧ fs.locate false path = .ok (q, none) ∧
      fs' = { fs with root := Node.set (.file []) q fs.root } := by
  induction tries generalizing i with
  | zero => simp [createTemporary] at h
  | succ tries ih =>
      rw [createTemporary] at h
      split at h
      · next pos fs₁ hcreate =>
          cases h
          refine ⟨number i, rfl, ?_⟩
          unfold FileSystem.create at hcreate
          split at hcreate
          · cases hcreate
          · cases hcreate
          · next hlocate =>
              cases hcreate
              exact ⟨hlocate, rfl⟩
      · split at h
        · exact ih h
        · cases h

/-- The temporary file is left with some content, or it was moved. -/
theorem fillTemporary_cases {how : Circumstances} {c : Cache} {fs fs' : FileSystem}
    {key content path : Text} {q : List Text} {r : Option AccessError}
    (h : fillTemporary how c fs key content path q = (fs', r)) :
    (∃ t, r ≠ none ∧ fs' = { fs with root := Node.set (.file t) q fs.root }) ∨
    (r = none ∧ FileSystem.rename { fs with root := Node.set (.file content) q fs.root } path
      (c.entryPath key) = .ok fs') := by
  unfold fillTemporary at h
  split at h
  · cases h
    exact Or.inl ⟨_, Option.some_ne_none _, rfl⟩
  · cases h
    exact Or.inl ⟨_, Option.some_ne_none _, rfl⟩
  · cases h
    exact Or.inl ⟨_, Option.some_ne_none _, rfl⟩
  · dsimp only at h
    split at h
    · next hrename =>
        cases h
        exact Or.inr ⟨rfl, hrename⟩
    · cases h
      exact Or.inl ⟨_, Option.some_ne_none _, rfl⟩

/-- A place for a temporary file. -/
structure HasPlace (c : Cache) (fs : FileSystem) (pos : List Text) (key : Text) (k : Nat) :
    Prop where
  accept : FileSystem.IsAcceptable (c.below (temporaryNames key k))
  names : ∀ m ∈ temporaryNames key k, FileSystem.IsEntryName m
  folder : ∃ es, fs.root.get? (pos ++ folderNames key) = some (.folder es)
  free : fs.root.get? (pos ++ temporaryNames key k) = none

theorem IsAt.hasPlace {c : Cache} {fs : FileSystem} {pos q : List Text} {n : Node}
    (hat : c.IsAt fs pos n) {key : Text} (hkey : key.length = 32) {k : Nat}
    (h : fs.locate false (c.temporaryPath key k) = .ok (q, none)) :
    q = pos ++ temporaryNames key k ∧ c.HasPlace fs pos key k := by
  rw [temporaryPath_eq c hkey] at h
  have haccept := (FileSystem.locate_eq_ok_iff.mp h).1
  obtain ⟨rfl, _, hnames⟩ :=
    hat.locate_below (temporaryNames_ne_nil key k) (isName_of_mem_temporaryNames hkey k) h
  obtain ⟨dir, name, es, hpos, hdir, hfree⟩ := FileSystem.folder_of_locate_none h
  rw [temporaryNames, ← List.append_assoc] at hpos
  obtain ⟨rfl, _⟩ := List.append_inj' hpos rfl
  exact ⟨rfl, haccept, hnames, ⟨es, hdir⟩, hfree⟩

section Temporary

variable {c : Cache} {fs : FileSystem} {pos : List Text} {n : Node} {key : Text} {k : Nat}

/-- A temporary file moves nothing. -/
theorem IsAt.with_temporary (hat : c.IsAt fs pos n) (hplace : c.HasPlace fs pos key k)
    (t : Text) : ∃ m, c.IsAt { fs with
      root := Node.set (.file t) (pos ++ temporaryNames key k) fs.root } pos m := by
  obtain ⟨es, hdir⟩ := hplace.folder
  have hfree := hplace.free
  rw [temporaryNames, ← List.append_assoc] at hfree ⊢
  have hold : ∀ old, fs.root.get? ((pos ++ folderNames key) ++ [bytes "tmp-" ++ Text.decimal k]) =
      some old → ∃ a b, old = .file a ∧ Node.file t = .file b := by
    intro old hget
    rw [hfree] at hget
    cases hget
  refine hat.of_shape rfl (Node.shape_set hdir hold) fun q target hlink => ?_
  by_cases hq : q = (pos ++ folderNames key) ++ [bytes "tmp-" ++ Text.decimal k]
  · rw [hq, Node.get?_set_self] at hlink
    cases hlink
  · exact (Node.get?_set_leaf hdir hold (fun _ _ => rfl) hq (by simp)).mp hlink

/-- The path of a temporary file leads to it. -/
theorem IsAt.locate_temporary (hat : c.IsAt fs pos n) (hkey : key.length = 32)
    (hplace : c.HasPlace fs pos key k) (t : Text) :
    FileSystem.locate { fs with
        root := Node.set (.file t) (pos ++ temporaryNames key k) fs.root } false
      (c.temporaryPath key k) = .ok (pos ++ temporaryNames key k, some (.file t)) := by
  obtain ⟨m, hat'⟩ := hat.with_temporary hplace t
  have hget := hat'.get?_append (temporaryNames key k)
  rw [Node.get?_set_self] at hget
  rw [temporaryPath_eq c hkey]
  exact hat'.locate_of_get? (temporaryNames_ne_nil key k) (isName_of_mem_temporaryNames hkey k)
    hplace.names hplace.accept hget.symm

/-- What is left when the temporary file is gone again. -/
theorem HasPlace.grows (hplace : c.HasPlace fs pos key k) (t : Text) :
    fs.root.Grows (Node.remove (pos ++ temporaryNames key k)
      (Node.set (.file t) (pos ++ temporaryNames key k) fs.root)) := by
  obtain ⟨es, hdir⟩ := hplace.folder
  have hfree := hplace.free
  rw [temporaryNames, ← List.append_assoc] at hfree ⊢
  exact Node.grows_remove_set _ hdir hfree

end Temporary

/-- The file of the entry takes the place of the temporary one. -/
theorem rename_temporary {c : Cache} {fs fs' : FileSystem} {pos : List Text} {n : Node}
    (hat : c.IsAt fs pos n) {key content : Text} (hkey : key.length = 32) {k : Nat}
    (hplace : c.HasPlace fs pos key k)
    (h : FileSystem.rename { fs with
      root := Node.set (.file content) (pos ++ temporaryNames key k) fs.root }
        (c.temporaryPath key k) (c.entryPath key) = .ok fs') :
    FileSystem.IsAcceptable (c.entryPath key) ∧
    (∀ es, (Node.remove (pos ++ temporaryNames key k)
      (Node.set (.file content) (pos ++ temporaryNames key k) fs.root)).get?
        (pos ++ entryNames key) ≠ some (.folder es)) ∧
    fs' = ⟨Node.set (.file content) (pos ++ entryNames key)
      (Node.remove (pos ++ temporaryNames key k)
        (Node.set (.file content) (pos ++ temporaryNames key k) fs.root)), fs.here⟩ := by
  have hbareTemporary : FileSystem.bare (c.temporaryPath key k) = c.temporaryPath key k := by
    rw [temporaryPath_eq c hkey]
    exact FileSystem.bare_eq_self
      (c.getLast?_below (temporaryNames_ne_nil key k) (isName_of_mem_temporaryNames hkey k))
  have hbareEntry : FileSystem.bare (c.entryPath key) = c.entryPath key := by
    rw [entryPath_eq c hkey]
    exact FileSystem.bare_eq_self
      (c.getLast?_below (entryNames_ne_nil key) (isName_of_mem_entryNames hkey))
  obtain ⟨source, x, target, there, hsource, htarget, _, hmoved⟩ := FileSystem.rename_cases h
  rw [hbareTemporary, hat.locate_temporary hkey hplace content] at hsource
  cases hsource
  rw [hbareEntry] at htarget
  have haccept := (FileSystem.locate_eq_ok_iff.mp htarget).1
  obtain ⟨m, hat'⟩ := hat.with_temporary hplace content
  obtain ⟨rfl, hthere⟩ := hat'.locate_entry hkey htarget
  rcases hmoved with ⟨heq, _⟩ | ⟨hapart, hnot, rfl⟩
  · exact absurd (List.append_cancel_left heq) (temporaryNames_ne_entryNames hkey k)
  · refine ⟨haccept, fun es hes => ?_, rfl⟩
    obtain ⟨z, hz, htop⟩ := Node.get?_of_remove hes
    have hz' : there = some z := by
      rw [← hthere, ← hat'.get?_append]
      exact hz
    cases z with
    | folder es' => exact hnot es' hz'
    | file t => cases htop
    | link t => cases htop

/-- Storing adds folders and, unless it fails, replaces the file of the entry. -/
theorem putIn_cases {how : Circumstances} {c : Cache} {fs fs' : FileSystem} {pos : List Text}
    {n : Node} (hat : c.IsAt fs pos n) {key : Text} (hkey : key.length = 32) {e : CacheEntry}
    {r : Option AccessError} (h : putIn how c fs key e = (fs', r)) :
    ∃ mid : FileSystem, fs.root.Grows mid.root ∧ mid.here = fs.here ∧
      ((r ≠ none ∧ fs' = mid) ∨
        (r = none ∧ FileSystem.IsAcceptable (c.entryPath key) ∧
          (∃ es, mid.root.get? (pos ++ folderNames key) = some (.folder es)) ∧
          (∀ es, mid.root.get? (pos ++ entryNames key) ≠ some (.folder es)) ∧
          fs' = ⟨Node.set (.file (Packed.entry { e with schema := cacheSchema }))
            (pos ++ entryNames key) mid.root, mid.here⟩)) := by
  unfold putIn at h
  split at h
  · cases h
    exact ⟨fs, .refl _, rfl, Or.inl ⟨Option.some_ne_none _, rfl⟩⟩
  obtain ⟨hgrows, hhere⟩ := FileSystem.attemptFolders_grows fs (c.entryFolder key)
  split at h
  · next hmake =>
      rw [hmake] at hgrows hhere
      cases h
      exact ⟨_, hgrows, hhere, Or.inl ⟨Option.some_ne_none _, rfl⟩⟩
  · next made hmake =>
      rw [hmake] at hgrows hhere
      dsimp only at hgrows hhere
      obtain ⟨m, hmade⟩ := hat.of_shape hhere hgrows.shape fun q t => (hgrows.link q t).mp
      split at h
      · cases h
        exact ⟨_, hgrows, hhere, Or.inl ⟨Option.some_ne_none _, rfl⟩⟩
      split at h
      · cases h
        exact ⟨_, hgrows, hhere, Or.inl ⟨Option.some_ne_none _, rfl⟩⟩
      · next path q fs₁ htemporary =>
          obtain ⟨k, rfl, hlocate, rfl⟩ := createTemporary_cases htemporary
          obtain ⟨rfl, hplace⟩ := hmade.hasPlace hkey hlocate
          -- once the temporary file is gone, only folders were added
          have hgone (t : Text) := hgrows.trans (hplace.grows t)
          dsimp only at h
          split at h
          · next hfill =>
              cases h
              rcases fillTemporary_cases hfill with ⟨t, hnone, _⟩ | ⟨_, hrename⟩
              · exact absurd rfl hnone
              · rw [Node.set_set] at hrename
                obtain ⟨haccept, hnot, rfl⟩ := rename_temporary hmade hkey hplace hrename
                obtain ⟨es, hdir⟩ := hplace.folder
                exact ⟨⟨_, made.here⟩, hgone _, hhere,
                  Or.inr ⟨rfl, haccept, (hplace.grows _).folder _ es hdir, hnot, rfl⟩⟩
          · next hfill =>
              cases h
              rcases fillTemporary_cases hfill with ⟨t, _, rfl⟩ | ⟨hnone, _⟩
              · rw [Node.set_set, FileSystem.removeAll, hmade.locate_temporary hkey hplace t]
                exact ⟨⟨_, made.here⟩, hgone t, hhere, Or.inl ⟨Option.some_ne_none _, rfl⟩⟩
              · cases hnone

/-- A failed attempt to store leaves all files and links as they were. -/
theorem putIn_failed {how : Circumstances} {c : Cache} {fs fs' : FileSystem} {pos : List Text}
    {n : Node} (hat : c.IsAt fs pos n) {key : Text} (hkey : key.length = 32) {e : CacheEntry}
    {r : AccessError} (h : putIn how c fs key e = (fs', some r)) :
    fs.root.Grows fs'.root ∧ fs'.here = fs.here := by
  obtain ⟨mid, hgrows, hhere, ⟨_, rfl⟩ | ⟨hnone, _⟩⟩ := putIn_cases hat hkey h
  · exact ⟨hgrows, hhere⟩
  · cases hnone

/-- Replacing the file of an entry moves nothing and leaves all other files alone. -/
theorem IsAt.frame_set {c : Cache} {fs : FileSystem} {pos : List Text} {n : Node} {es : Entries}
    (h : c.IsAt fs pos n) {key content : Text}
    (hdir : n.get? (folderNames key) = some (.folder es))
    (hnot : ∀ es, n.get? (entryNames key) ≠ some (.folder es)) :
    fs.root.Shape (Node.set (.file content) (pos ++ entryNames key) fs.root) ∧
      ∀ q, q ≠ pos ++ entryNames key → ∀ x, (∀ es, x ≠ .folder es) →
        ((Node.set (.file content) (pos ++ entryNames key) fs.root).get? q = some x ↔
          fs.root.get? q = some x) := by
  have hsplit : pos ++ entryNames key =
      (pos ++ folderNames key) ++ [Text.hex key ++ bytes ".mp"] := by
    rw [entryNames_eq, List.append_assoc]
  rw [← h.get?_append] at hdir
  -- only a file can be replaced: there are no links, and a folder stays
  have hold : ∀ old, fs.root.get?
        ((pos ++ folderNames key) ++ [Text.hex key ++ bytes ".mp"]) = some old →
      ∃ t d, old = .file t ∧ Node.file content = .file d := by
    intro old hget
    rw [← hsplit, h.get?_append] at hget
    cases old with
    | file t => exact ⟨t, _, rfl, rfl⟩
    | link t => exact absurd hget (h.linkFree _ t)
    | folder es => exact absurd hget (hnot es)
  rw [hsplit]
  refine ⟨Node.shape_set hdir hold, ?_⟩
  intro q hq x hx
  exact Node.get?_set_leaf hdir hold (fun _ _ => rfl) hq hx

/-- What storing an entry does to the tree: its file is written, nothing is moved, and all other
files are left alone. -/
structure Stored (key content : Text) (pos : List Text) (fs fs' : FileSystem) : Prop where
  here : fs'.here = fs.here
  shape : fs.root.Shape fs'.root
  self : fs'.root.get? (pos ++ entryNames key) = some (.file content)
  file : ∀ q, q ≠ pos ++ entryNames key → ∀ t,
    fs'.root.get? q = some (.file t) ↔ fs.root.get? q = some (.file t)
  link : ∀ q t, fs'.root.get? q = some (.link t) → fs.root.get? q = some (.link t)

theorem putIn_stored {how : Circumstances} {c : Cache} {fs fs' : FileSystem} {pos : List Text}
    {n : Node} (hat : c.IsAt fs pos n) {key : Text} (hkey : key.length = 32) {e : CacheEntry}
    (hput : putIn how c fs key e = (fs', none)) :
    FileSystem.IsAcceptable (c.entryPath key) ∧
      Stored key (Packed.entry { e with schema := cacheSchema }) pos fs fs' := by
  obtain ⟨mid, hgrows, hhere, ⟨hnone, _⟩ | ⟨_, haccept, ⟨es, hdir⟩, hnot, rfl⟩⟩ :=
    putIn_cases hat hkey hput
  · exact absurd rfl hnone
  -- the new folders move nothing, so the cache is still at its position when the file is replaced
  obtain ⟨m, hmid⟩ := hat.of_shape hhere hgrows.shape fun q t => (hgrows.link q t).mp
  rw [hmid.get?_append] at hdir
  simp only [hmid.get?_append] at hnot
  obtain ⟨hshape, hframe⟩ := hmid.frame_set hdir hnot
  have hself := Node.get?_set_self (.file (Packed.entry { e with schema := cacheSchema }))
    (pos ++ entryNames key) mid.root
  refine ⟨haccept, hhere, hgrows.shape.trans hshape, hself, ?_, ?_⟩
  · intro q hq t
    exact (hframe q hq (.file t) (by simp)).trans (hgrows.file q t)
  · intro q t hlink
    have hq : q ≠ pos ++ entryNames key := by
      intro heq
      rw [heq] at hlink
      cases hself.symm.trans hlink
    exact (hgrows.link q t).mp ((hframe q hq (.link t) (by simp)).mp hlink)

theorem put_eq_ok_iff {c : Cache} {fs fs' : FileSystem} {key : Text} {e : CacheEntry} :
    c.put fs key e = .ok fs' ↔ putIn {} c fs key e = (fs', none) := by
  unfold put
  split
  · next heq => simp [heq]
  · next heq => simp [heq]

/-- Storing an entry writes its file and leaves all other files in the folder alone. -/
theorem IsAt.of_stored {c : Cache} {fs fs' : FileSystem} {pos : List Text} {n : Node}
    (hat : c.IsAt fs pos n) {key content : Text} (hstored : Stored key content pos fs fs') :
    ∃ n', c.IsAt fs' pos n' ∧ n'.get? (entryNames key) = some (.file content) ∧
      ∀ q, q ≠ entryNames key → ∀ t, n'.get? q = some (.file t) ↔ n.get? q = some (.file t) := by
  obtain ⟨n', hat'⟩ := hat.of_shape hstored.here hstored.shape hstored.link
  refine ⟨n', hat', ?_, ?_⟩
  · rw [← hat'.get?_append]
    exact hstored.self
  · intro q hq t
    rw [← hat'.get?_append, ← hat.get?_append]
    exact hstored.file _ (fun heq => hq (List.append_cancel_left heq)) t

/-- What was stored is found, provided it fits into an entry. -/
theorem get_putIn_self {how : Circumstances} {c : Cache} {fs fs' : FileSystem} {pos : List Text}
    {n : Node} (hat : c.IsAt fs pos n) {key : Text} (hkey : key.length = 32) {e : CacheEntry}
    (hfits : Packed.EntryFits e) (hput : putIn how c fs key e = (fs', none)) :
    c.get fs' key = .ok (some { e with schema := cacheSchema }) := by
  obtain ⟨haccept, hstored⟩ := putIn_stored hat hkey hput
  obtain ⟨n', hat', hself, _⟩ := hat.of_stored hstored
  exact (get_eq_some_iff hat' hkey).mpr
    ⟨haccept, _, hself, Packed.readEntry_entry hfits, rfl⟩

/-- Storing under one key does not change what is found under another. -/
theorem get_putIn_of_ne {how : Circumstances} {c : Cache} {fs fs' : FileSystem} {pos : List Text}
    {n : Node} (hat : c.IsAt fs pos n) {key other : Text} (hkey : key.length = 32)
    (hother : other.length = 32) (hne : other ≠ key) {e d : CacheEntry}
    (hput : putIn how c fs key e = (fs', none)) :
    c.get fs' other = .ok (some d) ↔ c.get fs other = .ok (some d) := by
  obtain ⟨n', hat', _, hothers⟩ := hat.of_stored (putIn_stored hat hkey hput).2
  rw [get_eq_some_iff hat' hother, get_eq_some_iff hat hother]
  simp only [hothers _ fun heq => hne (entryNames_inj heq)]

/-! ## When nothing is refused -/

theorem put_stored {c : Cache} {fs fs' : FileSystem} {pos : List Text} {n : Node}
    (hat : c.IsAt fs pos n) {key : Text} (hkey : key.length = 32) {e : CacheEntry}
    (hput : c.put fs key e = .ok fs') :
    FileSystem.IsAcceptable (c.entryPath key) ∧
      Stored key (Packed.entry { e with schema := cacheSchema }) pos fs fs' :=
  putIn_stored hat hkey (put_eq_ok_iff.mp hput)

theorem put_isAt {c : Cache} {fs fs' : FileSystem} {pos : List Text} {n : Node}
    (hat : c.IsAt fs pos n) {key : Text} (hkey : key.length = 32) {e : CacheEntry}
    (hput : c.put fs key e = .ok fs') :
    ∃ n', c.IsAt fs' pos n' ∧
      n'.get? (entryNames key) = some (.file (Packed.entry { e with schema := cacheSchema })) ∧
      ∀ q, q ≠ entryNames key → ∀ t, n'.get? q = some (.file t) ↔ n.get? q = some (.file t) :=
  hat.of_stored (put_stored hat hkey hput).2

/-- A file that a path leads to is still there after storing, unless it is the entry's own. -/
theorem locate_put {c : Cache} {fs fs' : FileSystem} {pos q : List Text} {n : Node}
    (hat : c.IsAt fs pos n) {key p t : Text} (hkey : key.length = 32) {e : CacheEntry}
    (hput : c.put fs key e = .ok fs') (hlocate : fs.locate true p = .ok (q, some (.file t)))
    (hq : q ≠ pos ++ entryNames key) : fs'.locate true p = .ok (q, some (.file t)) := by
  obtain ⟨_, hstored⟩ := put_stored hat hkey hput
  obtain ⟨haccept, hreach, hslash⟩ := FileSystem.locate_eq_ok_iff.mp hlocate
  obtain ⟨x, hreach', _⟩ := hreach.shape hstored.shape
  have hx : some x = some (.file t) := by
    rw [← hreach'.get?, List.reverse_reverse, hstored.file q hq]
    exact FileSystem.get?_of_locate hlocate
  rw [hx] at hreach'
  have hstart : FileSystem.startOf fs' p = FileSystem.startOf fs p := by
    rw [FileSystem.startOf, FileSystem.startOf, hstored.here]
  exact FileSystem.locate_eq_ok_iff.mpr ⟨haccept, hstart ▸ hreach', hslash⟩

theorem get_put_self {c : Cache} {fs fs' : FileSystem} {pos : List Text} {n : Node}
    (hat : c.IsAt fs pos n) {key : Text} (hkey : key.length = 32) {e : CacheEntry}
    (hfits : Packed.EntryFits e) (hput : c.put fs key e = .ok fs') :
    c.get fs' key = .ok (some { e with schema := cacheSchema }) :=
  get_putIn_self hat hkey hfits (put_eq_ok_iff.mp hput)

theorem get_put_of_ne {c : Cache} {fs fs' : FileSystem} {pos : List Text} {n : Node}
    (hat : c.IsAt fs pos n) {key other : Text} (hkey : key.length = 32)
    (hother : other.length = 32) (hne : other ≠ key) {e d : CacheEntry}
    (hput : c.put fs key e = .ok fs') :
    c.get fs' other = .ok (some d) ↔ c.get fs other = .ok (some d) :=
  get_putIn_of_ne hat hkey hother hne (put_eq_ok_iff.mp hput)

end Cache

end LineReview
