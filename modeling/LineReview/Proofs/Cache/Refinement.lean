import LineReview.Proofs.Cache.Entries
import Mathlib.Logic.Function.Basic

/-!
# A cache is a map

Seen from outside, a cache is a map from keys to entries: `Call.update` says what a
call makes of the map when its answer is known, and `step` runs the map beside the
files. `Refines` joins the two, every call keeps it (`Refines.step`), and
so does a sequence of calls.

Dropping all entries moves the folder of the cache by the path as it was given, while
entries are looked up by its shortest spelling. The two lead to one place when the path
is spelled in its shortest form (`dropAll_empties`); otherwise a link on the way may
part them, and the entries survive.
-/

namespace LineReview

theorem Instant.slash_notMem_digits (t : Instant) : 47 ∉ t.digits := by
  simp only [Instant.digits, List.mem_append, Text.slash_notMem_decimalPadded, or_false]
  split <;> simp

namespace Cache

/-! ## Dropping all entries -/

/-- The ending that the folder is moved aside with. -/
def asideSuffix (now : Instant) : Text := bytes ".old-" ++ now.digits

theorem isName_append_asideSuffix {name : Text} (hname : 47 ∉ name) (now : Instant) :
    Path.IsName (name ++ asideSuffix now) := by
  have hold : bytes ".old-" = [46, 111, 108, 100, 45] := by decide
  have hlong : 5 ≤ (name ++ asideSuffix now).length := by
    simp only [asideSuffix, hold, List.length_append, List.length_cons, List.length_nil]
    omega
  refine ⟨?_, ?_, ?_, ?_⟩
  · intro h
    simp [h] at hlong
  · intro h
    simp [h] at hlong
  · intro h
    simp [h, Path.up] at hlong
  · rw [List.mem_append, not_or, asideSuffix, List.mem_append, not_or, hold]
    exact ⟨hname, by decide, now.slash_notMem_digits⟩

/-- The folder is moved within the folder that it stands in. -/
theorem discarded_eq {c : Cache} (hclean : Path.clean c.folder = c.folder) (now : Instant) :
    ∃ front last, Path.Normal (Path.isAbsolute c.folder) (front ++ [last]).reverse ∧
      c.discarded now = Path.ofNames (Path.isAbsolute c.folder) (front ++ [last]) ∧
      (Path.names c.folder = front ∨ ∃ name, Path.names c.folder = front ++ [name]) := by
  have hnormal := Path.normal_names c.folder
  have hsuffix : c.discarded now = Path.clean c.folder ++ asideSuffix now := by
    rw [discarded, hclean, asideSuffix, List.append_assoc]
  rw [hsuffix, Path.clean]
  rcases List.eq_nil_or_concat' (Path.names c.folder) with hnil | ⟨front, name, hnames⟩
  · -- the root and the working directory have no name of their own
    rw [hnil]
    cases Path.isAbsolute c.folder with
    | true =>
        have hname : Path.IsName ([] ++ asideSuffix now) :=
          isName_append_asideSuffix List.not_mem_nil now
        exact ⟨[], [] ++ asideSuffix now, Path.Normal.cons trivial hname, rfl, Or.inl rfl⟩
    | false =>
        have hname : Path.IsName ([46] ++ asideSuffix now) :=
          isName_append_asideSuffix (by decide) now
        exact ⟨[], [46] ++ asideSuffix now, Path.Normal.cons trivial hname, rfl, Or.inl rfl⟩
  · rw [hnames, List.reverse_append] at hnormal
    have hname := isName_append_asideSuffix hnormal.2.2.1 now
    refine ⟨front, name ++ asideSuffix now, ?_, ?_, Or.inr ⟨name, hnames⟩⟩
    · rw [List.reverse_append]
      exact hnormal.2.2.2.2.cons hname
    · rw [hnames, Path.ofNames_append_text]

/-- What a path with a name at its end is made of. -/
theorem names_of_isNamed {c : Cache} (hclean : Path.clean c.folder = c.folder)
    (hnamed : FileSystem.isNamed c.folder = true) :
    ∃ front last, Path.names c.folder = front ++ [last] ∧ last ≠ [46] ∧ last ≠ Path.up := by
  rcases List.eq_nil_or_concat' (Path.names c.folder) with hnil | ⟨front, last, hnames⟩
  · have hunnamed : ∀ rooted, FileSystem.isNamed (Path.ofNames rooted []) = false := by decide
    rw [← hclean, Path.clean, hnil, hunnamed] at hnamed
    cases hnamed
  · have hpieces : FileSystem.pieces c.folder = front ++ [last] := by
      rw [← hnames, ← FileSystem.pieces_ofNames (Path.normal_names c.folder) (by simp [hnames])]
      exact congrArg _ hclean.symm
    rw [FileSystem.isNamed, hpieces, List.getLast?_concat] at hnamed
    simp only [Bool.and_eq_true, decide_eq_true_eq] at hnamed
    exact ⟨front, last, hnames, hnamed.1, hnamed.2⟩

section Drop

variable {c : Cache} {fs fs' : FileSystem} {pos : List Text} {n : Node} {now : Instant}

theorem bare_discarded (hclean : Path.clean c.folder = c.folder) (now : Instant) :
    FileSystem.bare (c.discarded now) = c.discarded now := by
  obtain ⟨front, last, hnormal, heq, _⟩ := discarded_eq hclean now
  rw [heq]
  exact FileSystem.bare_eq_self (Path.getLast?_ofNames hnormal (by simp))

theorem bare_folder (hclean : Path.clean c.folder = c.folder) :
    FileSystem.bare c.folder = c.folder := by
  have hbare := FileSystem.bare_clean c.folder
  rwa [hclean] at hbare

/-- When the folder is there, moving it does not fail because something is missing. -/
theorem IsAt.rename_ne_notFound (hclean : Path.clean c.folder = c.folder)
    (hat : c.IsAt fs pos n) : fs.rename c.folder (c.discarded now) ≠ .error .notFound := by
  have hfound := hat.found
  rw [hclean] at hfound
  obtain ⟨q, x, hlocate⟩ := FileSystem.locate_unfollowed hfound
  rw [← bare_folder hclean] at hlocate
  refine FileSystem.rename_ne_notFound hlocate ?_
  obtain ⟨front, last, hnormal, heq, hnames⟩ := discarded_eq hclean now
  have hreach := FileSystem.reaches_names hat.found
  rw [bare_discarded hclean, heq]
  rcases hnames with hnames | ⟨name, hnames⟩
  · obtain ⟨es, rfl⟩ := hat.folder
    rw [hnames] at hreach
    exact FileSystem.locate_ne_notFound hnormal hreach
  · rw [hnames] at hreach
    obtain ⟨dir, es, _, hfront, _⟩ := hreach.split
    exact FileSystem.locate_ne_notFound hnormal hfront

/-- What dropping leaves of the tree: every path leads to where it led before or nowhere, and the
place of the folder is free. -/
theorem rename_folder (hclean : Path.clean c.folder = c.folder)
    (hfree : (fs.lookup false (c.discarded now)).isOk = false)
    (h : fs.rename c.folder (c.discarded now) = .ok fs') :
    ∃ source x, fs.locate false c.folder = .ok (source, some x) ∧
      FileSystem.isNamed c.folder = true ∧ fs'.here = fs.here ∧
      fs.root.Agree fs'.root ∧ fs'.root.get? source = none := by
  obtain ⟨source, x, target, there, hsource, htarget, hnamed, hmoved⟩ :=
    FileSystem.rename_cases h
  rw [bare_folder hclean] at hsource
  rw [bare_discarded hclean] at htarget
  have hthere : there = none := by
    cases there with
    | none => rfl
    | some y =>
        rw [FileSystem.lookup_eq_ok_iff.mpr ⟨target, htarget⟩] at hfree
        cases hfree
  subst hthere
  obtain ⟨dir, name, es, rfl, hdir, hnone⟩ := FileSystem.folder_of_locate_none htarget
  have hx := FileSystem.get?_of_locate hsource
  refine ⟨source, x, hsource, hnamed, ?_⟩
  rcases hmoved with ⟨rfl, _⟩ | ⟨hapart, _, rfl⟩
  · rw [hnone] at hx
    cases hx
  · exact ⟨rfl, Node.agree_move hx hdir hnone hapart⟩

/-- After all entries were dropped the folder of the cache is there, and it is empty. -/
theorem dropAll_empties (hclean : Path.clean c.folder = c.folder) (hat : c.IsAt fs pos n)
    (hfree : (fs.lookup false (c.discarded now)).isOk = false)
    (h : c.dropAll fs now = (fs', none)) : ∃ pos', c.IsAt fs' pos' .empty := by
  unfold dropAll at h
  split at h
  · next moved hrename =>
      obtain ⟨source, x, hsource, hnamed, hhere, hagree, hnone⟩ :=
        rename_folder hclean hfree hrename
      obtain ⟨p, hremoved⟩ := moved.removeAll_cases (c.discarded now)
      obtain ⟨front, last, hnames, hlastHere, hlastUp⟩ := names_of_isNamed hclean hnamed
      have hnormal := Path.normal_names c.folder
      have hspelled : Path.ofNames (Path.isAbsolute c.folder) (front ++ [last]) = c.folder := by
        rw [← hnames]
        exact hclean
      rw [hnames] at hnormal
      rw [hremoved, FileSystem.attemptFolders, ← hspelled] at h
      rcases FileSystem.attemptFoldersFuel_cases hnormal h with
        ⟨rfl, q, es, hlocate⟩ | ⟨_, q, hlocate⟩
      · -- nothing is left at the place of the folder, and its path leads to no other
        rw [← hspelled] at hsource
        have hgone : (moved.root.remove p).get? source = none := by
          rw [Option.eq_none_iff_forall_ne_some]
          intro y hy
          obtain ⟨z, hz, _⟩ := Node.get?_of_remove hy
          rw [hnone] at hz
          cases hz
        exact absurd hlocate (FileSystem.not_locate_of_agree hnormal hlastHere hlastUp hsource hhere
          (hagree.remove p) hgone)
      · refine ⟨q, ?_, rfl, Node.linkFree_empty⟩
        rw [hclean, ← hspelled]
        exact hlocate true
  · next r hrename =>
      split at h
      · next hr =>
          rw [hr] at hrename
          exact absurd hrename (hat.rename_ne_notFound hclean)
      · cases h

end Drop

/-! ## The map -/

/-- What a call makes of the map, when its answer is known. -/
def Call.update : Call → Answer → (Text → Option CacheEntry) → Text → Option CacheEntry
  | .put key e _, .stored none, m => Function.update m key (some e)
  | .dropAll _, _, _ => fun _ => none
  | _, _, m => m

/-- One call on the files, and the map beside them. -/
def step (c : Cache) (s : FileSystem × (Text → Option CacheEntry)) (x : Call) :
    FileSystem × (Text → Option CacheEntry) :=
  ((c.call s.1 x).1, x.update (c.call s.1 x).2 s.2)

/-- Calls one after another, from a cache without entries. -/
def run (c : Cache) (fs : FileSystem) (calls : List Call) :
    FileSystem × (Text → Option CacheEntry) :=
  calls.foldl c.step (fs, fun _ => none)

/-- What is assumed of a call: a key is a digest, an entry fits into its file, and dropping
succeeds, with a name for the old folder that is not taken. -/
def Accepts (c : Cache) (fs : FileSystem) : Call → Prop
  | .put key e _ => key.length = 32 ∧ Packed.EntryFits e
  | .get _ _ => True
  | .dropAll now => (c.dropAll fs now).2 = none ∧
      (fs.lookup false (c.discarded now)).isOk = false

/-- The cache is in its place, and what it finds is what the map holds. -/
structure Refines (c : Cache) (s : FileSystem × (Text → Option CacheEntry)) : Prop where
  isAt : ∃ pos n, c.IsAt s.1 pos n
  get : ∀ key, key.length = 32 → ∀ d,
    c.get s.1 key = .ok (some d) ↔ ∃ e, s.2 key = some e ∧ d = { e with schema := cacheSchema }

/-- Nothing is found in an empty folder. -/
theorem IsAt.get_ne_some {c : Cache} {fs : FileSystem} {pos : List Text}
    (hat : c.IsAt fs pos .empty) {key : Text} (hkey : key.length = 32) (d : CacheEntry) :
    c.get fs key ≠ .ok (some d) := by
  intro hget
  obtain ⟨_, t, hfile, _⟩ := (get_eq_some_iff hat hkey).mp hget
  rw [Node.get?_empty (entryNames_ne_nil key)] at hfile
  cases hfile

/-- Where only folders were added the same entries are found. -/
theorem IsAt.get_of_grows {c : Cache} {fs fs' : FileSystem} {pos : List Text} {n : Node}
    (hat : c.IsAt fs pos n) (hgrows : fs.root.Grows fs'.root) (hhere : fs'.here = fs.here) :
    ∃ n', c.IsAt fs' pos n' ∧ ∀ key, key.length = 32 → ∀ d,
      c.get fs' key = .ok (some d) ↔ c.get fs key = .ok (some d) := by
  obtain ⟨n', hat'⟩ := hat.of_shape hhere hgrows.shape fun q t => (hgrows.link q t).mp
  refine ⟨n', hat', ?_⟩
  intro key hkey d
  rw [get_eq_some_iff hat' hkey, get_eq_some_iff hat hkey]
  simp only [← hat'.get?_append, ← hat.get?_append, hgrows.file]

section Step

variable {c : Cache} {s : FileSystem × (Text → Option CacheEntry)}

theorem Refines.put (h : c.Refines s) {how : Circumstances} {key : Text} {e : CacheEntry}
    (hkey : key.length = 32) (hfits : Packed.EntryFits e) :
    c.Refines (c.step s (.put key e how)) := by
  obtain ⟨pos, n, hat⟩ := h.isAt
  simp only [step, call]
  cases hput : putIn how c s.1 key e with
  | mk fs' r =>
  cases r with
  | some r =>
      obtain ⟨hgrows, hhere⟩ := putIn_failed hat hkey hput
      obtain ⟨n', hat', hget⟩ := hat.get_of_grows hgrows hhere
      refine ⟨⟨pos, n', hat'⟩, ?_⟩
      intro other hother d
      exact (hget other hother d).trans (h.get other hother d)
  | none =>
      obtain ⟨n', hat', _⟩ := hat.of_stored (putIn_stored hat hkey hput).2
      refine ⟨⟨pos, n', hat'⟩, ?_⟩
      intro other hother d
      simp only [Call.update]
      by_cases heq : other = key
      · subst heq
        rw [get_putIn_self hat hother hfits hput, Function.update_self]
        simp [eq_comm]
      · rw [get_putIn_of_ne hat hkey hother heq hput, Function.update_of_ne heq]
        exact h.get other hother d

theorem Refines.dropAll (hclean : Path.clean c.folder = c.folder) (h : c.Refines s)
    {now : Instant} (hdrop : (c.dropAll s.1 now).2 = none)
    (hfree : (s.1.lookup false (c.discarded now)).isOk = false) :
    c.Refines (c.step s (.dropAll now)) := by
  obtain ⟨pos, n, hat⟩ := h.isAt
  obtain ⟨pos', hat'⟩ := dropAll_empties hclean hat hfree (Prod.ext rfl hdrop)
  refine ⟨⟨pos', _, hat'⟩, ?_⟩
  intro key hkey d
  constructor
  · intro hget
    exact absurd hget (hat'.get_ne_some hkey d)
  · rintro ⟨e, he, _⟩
    cases he

/-- Every call keeps the cache and the map in step. -/
theorem Refines.step (hclean : Path.clean c.folder = c.folder) (h : c.Refines s) {x : Call}
    (hx : c.Accepts s.1 x) : c.Refines (c.step s x) := by
  cases x with
  | put key e how => exact h.put hx.1 hx.2
  | get key out => exact h
  | dropAll now => exact h.dropAll hclean hx.1 hx.2

/-- What the map says is what a caller gets. -/
theorem Refines.getInto (h : c.Refines s) {key : Text} (hkey : key.length = 32)
    (out : CacheEntry) :
    match s.2 key with
    | some e => c.getInto s.1 key out = (.ok true, { e with schema := cacheSchema })
    | none => ∃ found, found ≠ .ok true ∧ c.getInto s.1 key out = (found, out) := by
  split
  · next e he =>
      have hget := (h.get key hkey _).mpr ⟨e, he, rfl⟩
      simp only [Cache.getInto, hget]
  · next hnone =>
      unfold Cache.getInto
      split
      · next d hget =>
          obtain ⟨e, he, _⟩ := (h.get key hkey d).mp hget
          rw [hnone] at he
          cases he
      · exact ⟨.ok false, by simp, rfl⟩
      · next r _ => exact ⟨.error r, by simp, rfl⟩

end Step

/-- Every call of a sequence is accepted where its turn comes. -/
def AcceptsAll (c : Cache) : FileSystem → List Call → Prop
  | _, [] => True
  | fs, x :: calls => c.Accepts fs x ∧ c.AcceptsAll (c.call fs x).1 calls

theorem Refines.foldl {c : Cache} {s : FileSystem × (Text → Option CacheEntry)}
    (hclean : Path.clean c.folder = c.folder) (h : c.Refines s) {calls : List Call}
    (hcalls : c.AcceptsAll s.1 calls) : c.Refines (calls.foldl c.step s) := by
  induction calls generalizing s with
  | nil => exact h
  | cons x calls ih => exact ih (h.step hclean hcalls.1) hcalls.2

/-- After any calls, a key is found exactly when an entry was stored under it since all were
dropped, and then the latest one is given back, in the present schema; otherwise the caller's entry
is left as it was. An attempt to store that fails leaves every file as it was, and no other. -/
theorem calls_refine_map {c : Cache} {fs : FileSystem} {pos : List Text} {n : Node}
    (hclean : Path.clean c.folder = c.folder) (hat : c.IsAt fs pos n)
    (hempty : ∀ key, key.length = 32 → ∀ e, c.get fs key ≠ .ok (some e)) {calls : List Call}
    (hcalls : c.AcceptsAll fs calls) :
    (∀ key, key.length = 32 → ∀ out,
      match (c.run fs calls).2 key with
      | some e => c.getInto (c.run fs calls).1 key out = (.ok true, { e with schema := 1 })
      | none => ∃ found, found ≠ .ok true ∧ c.getInto (c.run fs calls).1 key out = (found, out)) ∧
    ∀ how key e r fs', key.length = 32 → putIn how c (c.run fs calls).1 key e = (fs', some r) →
      ∀ q t, fs'.root.get? q = some (.file t) ↔
        (c.run fs calls).1.root.get? q = some (.file t) := by
  have hstart : c.Refines (fs, fun _ => none) := by
    refine ⟨⟨pos, n, hat⟩, ?_⟩
    intro key hkey d
    simp [hempty key hkey d]
  have hrefines := hstart.foldl hclean hcalls
  constructor
  · intro key hkey out
    exact hrefines.getInto hkey out
  · intro how key e r fs' hkey hput
    obtain ⟨pos', n', hat'⟩ := hrefines.isAt
    exact (putIn_failed hat' hkey hput).1.file

/-! ## Sequences of calls -/

section Sample

def firstKey : Text := List.replicate 32 1

def secondKey : Text := List.replicate 32 2

def firstEntry : CacheEntry := { schema := 7, path := bytes "a.cpp", diagnostics := none }

def secondEntry : CacheEntry := { schema := 0, path := bytes "b.cpp", diagnostics := some [] }

/-- Two entries are stored, all are dropped, and one key is stored again. -/
def storeCalls : List Call :=
  [.put firstKey firstEntry {}, .put secondKey secondEntry {}, .dropAll {},
    .put firstKey secondEntry {}]

/-- Writing the temporary file fails after three bytes. -/
def fullDisk : Circumstances :=
  { refused := fun s => if s = .write then some .invalid else none
    written := 3 }

def storeCache : Cache := ⟨bytes "cache"⟩

def storeFiles : FileSystem := { root := .folder (.cons (bytes "cache") .empty .nil), here := [] }

theorem fits_firstEntry : Packed.EntryFits firstEntry :=
  ⟨by decide, by simp [firstEntry]⟩

theorem fits_secondEntry : Packed.EntryFits secondEntry := by
  refine ⟨by decide, ?_⟩
  rintro ds ⟨⟩
  exact ⟨by decide, by simp⟩

theorem isAt_storeFiles : storeCache.IsAt storeFiles [bytes "cache"] .empty :=
  ⟨rfl, rfl, Node.linkFree_empty⟩

/-- The key that was stored again is found with its last entry, the other one is not, and a failed
attempt to store leaves no file behind. -/
theorem calls_refine_map_again :
    Path.clean storeCache.folder = storeCache.folder ∧
    storeCache.AcceptsAll storeFiles storeCalls ∧
    storeCache.getInto (storeCache.run storeFiles storeCalls).1 firstKey firstEntry =
      (.ok true, { secondEntry with schema := 1 }) ∧
    (∃ found, found ≠ .ok true ∧
      storeCache.getInto (storeCache.run storeFiles storeCalls).1 secondKey firstEntry =
        (found, firstEntry)) ∧
    ∃ fs' r, putIn fullDisk storeCache (storeCache.run storeFiles storeCalls).1 firstKey
        firstEntry = (fs', some r) ∧
      ∀ q t, fs'.root.get? q = some (.file t) ↔
        (storeCache.run storeFiles storeCalls).1.root.get? q = some (.file t) := by
  have hclean : Path.clean storeCache.folder = storeCache.folder := by decide +kernel
  have hcalls : storeCache.AcceptsAll storeFiles storeCalls := by
    refine ⟨⟨rfl, fits_firstEntry⟩, ⟨rfl, fits_secondEntry⟩, ⟨?_, ?_⟩, ⟨rfl, fits_secondEntry⟩,
      trivial⟩
    · decide +kernel
    · decide +kernel
  have hempty : ∀ key, key.length = 32 → ∀ e, storeCache.get storeFiles key ≠ .ok (some e) := by
    intro key hkey e
    exact isAt_storeFiles.get_ne_some hkey e
  obtain ⟨hfound, hfailed⟩ := calls_refine_map hclean isAt_storeFiles hempty hcalls
  have hfirst : (storeCache.run storeFiles storeCalls).2 firstKey = some secondEntry := by
    decide +kernel
  have hsecond : (storeCache.run storeFiles storeCalls).2 secondKey = none := by
    decide +kernel
  have hfull : (putIn fullDisk storeCache (storeCache.run storeFiles storeCalls).1 firstKey
      firstEntry).2.isSome = true := by
    decide +kernel
  generalize storeCache.run storeFiles storeCalls = s at hfound hfailed hfirst hsecond hfull ⊢
  refine ⟨hclean, hcalls, ?_, ?_, ?_⟩
  · have hget := hfound firstKey rfl firstEntry
    rwa [hfirst] at hget
  · have hget := hfound secondKey rfl firstEntry
    rwa [hsecond] at hget
  · obtain ⟨r, hr⟩ := Option.isSome_iff_exists.mp hfull
    have hput : putIn fullDisk storeCache s.1 firstKey firstEntry =
        ((putIn fullDisk storeCache s.1 firstKey firstEntry).1, some r) := Prod.ext rfl hr
    exact ⟨_, r, hput, hfailed fullDisk firstKey firstEntry r _ rfl hput⟩

/-- A path that is not in its shortest form: the link on the way leads into another folder. -/
def partedCache : Cache := ⟨bytes "a/../cache"⟩

def partedFiles : FileSystem :=
  { root := .folder (.cons (bytes "a") (.link (bytes "x/y")) (.cons (bytes "cache") .empty
      (.cons (bytes "x") (.folder (.cons (bytes "cache") .empty (.cons (bytes "y") .empty .nil)))
        .nil)))
    here := [] }

/-- The entry is stored below one folder, another one is dropped, and the entry is still found. -/
theorem found_after_dropAll :
    Path.clean partedCache.folder ≠ partedCache.folder ∧
    partedCache.IsAt partedFiles [bytes "cache"] .empty ∧
    partedCache.AcceptsAll partedFiles [.put firstKey firstEntry {}, .dropAll {}] ∧
    (partedCache.run partedFiles [.put firstKey firstEntry {}, .dropAll {}]).2 firstKey = none ∧
    partedCache.getInto
      (partedCache.run partedFiles [.put firstKey firstEntry {}, .dropAll {}]).1 firstKey
      secondEntry = (.ok true, { firstEntry with schema := 1 }) := by
  refine ⟨by decide +kernel, ⟨rfl, rfl, Node.linkFree_empty⟩,
    ⟨⟨rfl, fits_firstEntry⟩, ⟨?_, ?_⟩, trivial⟩, rfl, ?_⟩
  · decide +kernel
  · decide +kernel
  · decide +kernel

end Sample

end Cache

end LineReview
