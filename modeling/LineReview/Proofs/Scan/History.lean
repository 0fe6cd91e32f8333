import LineReview.Proofs.Cache.Entries
import LineReview.Proofs.Scan.Runs
import Mathlib.Data.List.Chain

/-!
# Runs that share a cache

Runs of scans may follow each other over one cache, under rules and over files
that change from one to the next. Every entry that is found in it is then
`Recorded`: its key was made of the name of some rules and the digest of some
content, and it holds what a review under those rules finds in that content.
The name of the rules determines them and the digest its content, so an answer
of the cache is the one a review would give (`answersRight_of_sound`).

The invariant is that the cache is `Sound`. It holds when nothing is found in
the cache, and a worker that stores an entry keeps it (`sound_put`); so it holds
along every run (`History.along`) and from each run to the next
(`History.sound`).
-/

namespace LineReview

namespace Cache

/-! ## Keys -/

/-- The text that a key is the digest of. -/
def keyText (fingerprint digest : Text) : Text :=
  bytes "codereview/" ++ Text.decimal cacheSchema.toNat ++ [0] ++ fingerprint ++ [0] ++ digest

theorem length_key (fingerprint digest : Text) : (key fingerprint digest).length = 32 :=
  Digest.length_sha256 _

/-- A key text determines both of its parts, since all digests have one length. -/
theorem keyText_inj {p q d e : Text} (hlength : d.length = e.length)
    (h : keyText p d = keyText q e) : p = q ∧ d = e := by
  unfold keyText at h
  obtain ⟨hfront, hdigest⟩ := List.append_inj' h hlength
  exact ⟨List.append_cancel_left (List.append_cancel_right hfront), hdigest⟩

/-! ## The state of a cache -/

/-- The folder of the cache is there, and it holds no links. -/
def Ready (c : Cache) (fs : FileSystem) : Prop := ∃ pos n, c.IsAt fs pos n

/-- No entry is found: the cache is empty, or what it holds is malformed or of another schema. -/
def FindsNothing (c : Cache) (fs : FileSystem) : Prop :=
  ∀ key e, key.length = 32 → c.get fs key ≠ .ok (some e)

/-- Every entry that is found in `fs'` is found in `fs`. -/
def AddsNothing (c : Cache) (fs fs' : FileSystem) : Prop :=
  ∀ key e, key.length = 32 → c.get fs' key = .ok (some e) → c.get fs key = .ok (some e)

end Cache

namespace Reviewer

theorem load_eq_ok {fs : FileSystem} {path : Text} {f : SourceFile} (h : load fs path = .ok f) :
    FileSystem.IsAcceptable path ∧ f.hash = Digest.sha256 f.content ∧
      f.lineIndex = (SourceFile.lineFeeds 0 f.content).toArray := by
  unfold load at h
  cases hread : fs.read path with
  | error e =>
      rw [hread] at h
      cases h
  | ok content =>
      rw [hread] at h
      obtain ⟨pos, hlocate⟩ := FileSystem.read_eq_ok_iff.mp hread
      cases h
      exact ⟨(FileSystem.locate_eq_ok_iff.mp hlocate).1, rfl, rfl⟩

theorem load_of_locate {fs : FileSystem} {path t : Text} {q : List Text}
    (h : fs.locate true path = .ok (q, some (.file t))) :
    load fs path = .ok (.ofDisk path t) := by
  rw [load, FileSystem.read_eq_ok_iff.mpr ⟨q, h⟩]

end Reviewer

namespace Scan

/-! ## Histories -/

/-- The text of the key under which the run looks a file up. -/
def Run.keyText (r : Run) (f : SourceFile) : Text :=
  Cache.keyText (r.options.reviewer.options.fingerprint r.options.version) f.hash

/-- Runs one after the other over one cache, by builds of one version. All of them take code points
of ambiguous width alike: that is up to the processes they run in, and no part of the name of the
rules. At first nothing is found in the cache. Between two runs anything may happen to the files,
and entries may get lost or be spoiled, but none are added. During a run its files do not change.
The diagnostics fit into the lengths that entries have room for. No two contents that occur have the
same digest, and neither have two texts of keys. -/
structure History (c : Cache) (version : Text) (widths : Text.Widths) (runs : List Run) : Prop where
  cache : ∀ r ∈ runs, r.options.cache = some c
  version : ∀ r ∈ runs, r.options.version = version
  widths : ∀ r ∈ runs, r.options.reviewer.widths = widths
  ready : ∀ r ∈ runs, c.Ready r.shared.files
  first : ∀ r, runs.head? = some r → c.FindsNothing r.shared.files
  between : runs.IsChain fun r r' => c.AddsNothing r.final.shared.files r'.shared.files
  steady : ∀ r ∈ runs, r.IsSteady
  fits : ∀ r ∈ runs, ∀ path f, r.Loads path f →
    ∀ ds, r.options.reviewer.source path f = some (.ok ds) → Packed.Fits ds
  contents : ∀ r ∈ runs, ∀ r' ∈ runs, ∀ path f path' f', r.Loads path f → r'.Loads path' f' →
    Digest.sha256 f.content = Digest.sha256 f'.content → f.content = f'.content
  keys : ∀ r ∈ runs, ∀ r' ∈ runs, ∀ path f path' f', r.Loads path f → r'.Loads path' f' →
    r.options.reviewer.classifier = none → r'.options.reviewer.classifier = none →
    Digest.sha256 (r.keyText f) = Digest.sha256 (r'.keyText f') → r.keyText f = r'.keyText f'

/-- The diagnostics are those of a content under some rules, and the key is made of the two. -/
def Recorded (runs : List Run) (key : Text) (ds : List Diagnostic) : Prop :=
  ∃ r ∈ runs, ∃ path f, r.Loads path f ∧ r.options.reviewer.classifier = none ∧
    key = Cache.key (r.options.reviewer.options.fingerprint r.options.version) f.hash ∧
    r.options.reviewer.source path f = some (.ok ds)

/-- Every entry that is found is recorded. -/
def Sound (c : Cache) (runs : List Run) (fs : FileSystem) : Prop :=
  ∀ key e, key.length = 32 → c.get fs key = .ok (some e) →
    Recorded runs key (e.diagnostics.getD [])

section History

variable {c : Cache} {version : Text} {widths : Text.Widths} {runs : List Run}

/-! ## Sound caches answer right -/

/-- Two files with one key have the same content and were reviewed under the same rules. -/
theorem History.eq_of_key_eq (h : History c version widths runs) {r r' : Run} (hr : r ∈ runs)
    (hr' : r' ∈ runs) {path path' : Text} {f f' : SourceFile} (hload : r.Loads path f)
    (hload' : r'.Loads path' f') (hlexical : r.options.reviewer.classifier = none)
    (hlexical' : r'.options.reviewer.classifier = none)
    (hkey : Digest.sha256 (r.keyText f) = Digest.sha256 (r'.keyText f')) :
    r.options.reviewer.options = r'.options.reviewer.options ∧ f.content = f'.content := by
  have htext := h.keys r hr r' hr' path f path' f' hload hload' hlexical hlexical' hkey
  have hhash := (Reviewer.load_eq_ok hload.2).2.1
  have hhash' := (Reviewer.load_eq_ok hload'.2).2.1
  have hlength : f.hash.length = f'.hash.length := by
    rw [hhash, hhash', Digest.length_sha256, Digest.length_sha256]
  obtain ⟨hname, hdigest⟩ := Cache.keyText_inj hlength htext
  rw [h.version r hr, h.version r' hr'] at hname
  rw [hhash, hhash'] at hdigest
  exact ⟨ReviewOptions.fingerprint_inj hname,
    h.contents r hr r' hr' path f path' f' hload hload' hdigest⟩

theorem answersRight_of_sound (h : History c version widths runs) {r : Run} (hr : r ∈ runs)
    {fs : FileSystem} (hsound : Sound c runs fs) : r.AnswersRight fs := by
  intro path hpath f d key e hload hkeyed hget
  obtain ⟨hcache, hlexical, rfl⟩ := ScanOptions.keyed_eq_some_iff.mp hkeyed
  obtain rfl : d = c := Option.some.inj (hcache.symm.trans (h.cache r hr))
  -- some run has stored the entry, and by its key that run had the same rules and the same content
  obtain ⟨r', hr', path', f', hload', hlexical', hkey, hsource⟩ :=
    hsound _ e (Cache.length_key _ _) hget
  obtain ⟨hoptions, hcontent⟩ :=
    h.eq_of_key_eq hr hr' ⟨hpath, hload⟩ hload' hlexical hlexical' hkey
  have hindex : f.lineIndex = f'.lineIndex := by
    rw [(Reviewer.load_eq_ok hload).2.2, (Reviewer.load_eq_ok hload'.2).2.2, hcontent]
  rw [Reviewer.source_eq_ok_iff, Reviewer.classify, hlexical'] at hsource
  rw [Reviewer.source_eq_ok_iff, Reviewer.classify, hlexical, hoptions, h.widths r hr,
    Review.outcome?_congr hcontent hindex, ← h.widths r' hr']
  exact hsource

/-! ## Caches stay sound -/

/-- Storing what is recorded keeps a cache sound. -/
theorem sound_put {fs fs' : FileSystem} {key : Text} {e : CacheEntry} (hready : c.Ready fs)
    (hsound : Sound c runs fs) (hkey : key.length = 32) (hfits : Packed.EntryFits e)
    (hrecorded : Recorded runs key (e.diagnostics.getD [])) (hput : c.put fs key e = .ok fs') :
    c.Ready fs' ∧ Sound c runs fs' := by
  obtain ⟨pos, n, hat⟩ := hready
  refine ⟨?_, ?_⟩
  · obtain ⟨n', hat', _⟩ := Cache.put_isAt hat hkey hput
    exact ⟨pos, n', hat'⟩
  · intro other d hother hget
    by_cases heq : other = key
    · rw [heq, Cache.get_put_self hat hkey hfits hput] at hget
      cases hget
      rw [heq]
      exact hrecorded
    · exact hsound other d hother ((Cache.get_put_of_ne hat hkey hother heq hput).mp hget)

/-- What a worker stores is recorded, and fits into an entry. -/
theorem History.recorded_of_storing (h : History c version widths runs) {r : Run} (hr : r ∈ runs)
    {w : Worker} {f : SourceFile} {key : Text} {d : Cache} (hpath : w.path ∈ r.paths)
    (hagrees : w.Agrees r.options.reviewer r.shared.files) (hstage : w.stage = .storing f)
    (hkeyed : r.options.keyed f = some (d, key)) :
    Recorded runs key (w.stored.getD []) ∧
      Packed.EntryFits { path := w.path, diagnostics := w.stored } := by
  obtain ⟨_, hlexical, rfl⟩ := ScanOptions.keyed_eq_some_iff.mp hkeyed
  unfold Worker.Agrees at hagrees
  rw [hstage] at hagrees
  obtain ⟨_, hload, hsource⟩ := hagrees
  have hloads : r.Loads w.path f := ⟨hpath, hload⟩
  refine ⟨?_, ?_, ?_⟩
  · rw [Worker.getD_stored]
    exact ⟨r, hr, w.path, f, hloads, hlexical, rfl, hsource⟩
  · have hshort := (Reviewer.load_eq_ok hload).1.short
    rw [FileSystem.maxPath] at hshort
    change w.path.length < 2 ^ 32
    omega
  · intro ds hds
    have hfits := h.fits r hr w.path f hloads w.diagnostics hsource
    have heq := Worker.getD_stored w
    rw [show w.stored = some ds from hds] at heq
    rw [show ds = w.diagnostics from heq]
    exact hfits

/-- Along a run the cache stays sound, and every worker agrees with a review of its file alone. The
two depend on each other: workers take answers from the cache, and the cache takes entries from
workers. -/
theorem History.along (h : History c version widths runs) {r : Run} (hr : r ∈ runs)
    (hsound : Sound c runs r.shared.files) :
    ∀ ms, ms <+: r.moves → c.Ready (r.after ms).shared.files ∧
      Sound c runs (r.after ms).shared.files ∧ r.Agrees (r.after ms) := by
  refine r.along (P := fun _ s => c.Ready s.shared.files ∧ Sound c runs s.shared.files ∧ r.Agrees s)
    ⟨h.ready r hr, hsound, r.forall_workers_nil _⟩ ?_
  · rintro ms m s' hms ht ⟨hready, hsound, hagrees⟩
    have hstill := Run.agrees_transition (h.steady r hr) hms (answersRight_of_sound h hr hsound) ht
      hagrees
    rcases ht.files with hsame | ⟨w, hw, f, d, key, hstage, hkeyed, hput⟩
    · rw [hsame]
      exact ⟨hready, hsound, hstill⟩
    · obtain ⟨hpath, hw⟩ := hagrees w hw
      obtain ⟨hrecorded, hfits⟩ := h.recorded_of_storing hr hpath hw hstage hkeyed
      obtain ⟨hcache, _, rfl⟩ := ScanOptions.keyed_eq_some_iff.mp hkeyed
      obtain rfl : d = c := Option.some.inj (hcache.symm.trans (h.cache r hr))
      obtain ⟨hready', hsound'⟩ :=
        sound_put hready hsound (Cache.length_key _ _) hfits hrecorded hput
      exact ⟨hready', hsound', hstill⟩

/-- Every run of a history starts with a sound cache. -/
theorem History.sound (h : History c version widths runs) {r : Run} (hr : r ∈ runs) :
    Sound c runs r.shared.files := by
  -- the first run finds nothing, and every other one at most what the run before it has left
  have hall : ∀ i (hi : i < runs.length), Sound c runs runs[i].shared.files := by
    intro i
    induction i with
    | zero =>
        intro hi key e hkey hget
        have hhead : runs.head? = some runs[0] := by
          rw [List.head?_eq_getElem?, List.getElem?_eq_getElem hi]
        exact absurd hget (h.first _ hhead key e hkey)
    | succ i ih =>
        intro hi key e hkey hget
        have hprevious := (h.along (List.getElem_mem (by omega)) (ih (by omega)) _
          List.prefix_rfl).2.1
        exact hprevious key e hkey
          (List.isChain_iff_getElem.mp h.between i hi key e hkey hget)
  obtain ⟨i, hi, rfl⟩ := List.mem_iff_getElem.mp hr
  exact hall i hi

theorem History.agrees (h : History c version widths runs) {r : Run} (hr : r ∈ runs) :
    r.Agrees r.final :=
  (h.along hr (h.sound hr) r.moves List.prefix_rfl).2.2

end History

/-! ## Files outside the cache -/

/-- A run does not touch a file that is no entry of its cache. -/
theorem Run.locate_along {r : Run} {c : Cache} {pos q : List Text} {n : Node} {path t : Text}
    (hcache : r.options.cache = some c) (hat : c.IsAt r.shared.files pos n)
    (hlocate : r.shared.files.locate true path = .ok (q, some (.file t)))
    (hq : ∀ key, q ≠ pos ++ Cache.entryNames key) :
    ∀ ms, ms <+: r.moves → (∃ n', c.IsAt (r.after ms).shared.files pos n') ∧
      (r.after ms).shared.files.locate true path = .ok (q, some (.file t)) := by
  refine r.along (P := fun _ s => (∃ n', c.IsAt s.shared.files pos n') ∧
    s.shared.files.locate true path = .ok (q, some (.file t))) ⟨⟨n, hat⟩, hlocate⟩ ?_
  rintro ms m s' _ ht ⟨⟨n', hat'⟩, hlocate'⟩
  rcases ht.files with hsame | ⟨_, _, f, d, key, _, hkeyed, hput⟩
  · rw [hsame]
    exact ⟨⟨n', hat'⟩, hlocate'⟩
  · obtain ⟨hcache', _, rfl⟩ := ScanOptions.keyed_eq_some_iff.mp hkeyed
    obtain rfl : d = c := Option.some.inj (hcache'.symm.trans hcache)
    obtain ⟨n'', hat'', _⟩ := Cache.put_isAt hat' (Cache.length_key _ _) hput
    exact ⟨⟨n'', hat''⟩, Cache.locate_put hat' (Cache.length_key _ _) hput hlocate' (hq _)⟩

theorem Run.locate_final {r : Run} {c : Cache} {pos q : List Text} {n : Node} {path t : Text}
    (hcache : r.options.cache = some c) (hat : c.IsAt r.shared.files pos n)
    (hlocate : r.shared.files.locate true path = .ok (q, some (.file t)))
    (hq : ∀ key, q ≠ pos ++ Cache.entryNames key) :
    (∃ n', c.IsAt r.final.shared.files pos n') ∧
      r.final.shared.files.locate true path = .ok (q, some (.file t)) :=
  Run.locate_along hcache hat hlocate hq r.moves List.prefix_rfl

/-- A run is steady when the files it reviews are no entries of its cache. -/
theorem Run.isSteady_of_apart {r : Run} {c : Cache} {pos : List Text} {n : Node}
    (hcache : r.options.cache = some c) (hat : c.IsAt r.shared.files pos n)
    (hapart : ∀ path ∈ r.paths, ∃ q t,
      r.shared.files.locate true path = .ok (q, some (.file t)) ∧
        ∀ key, q ≠ pos ++ Cache.entryNames key) : r.IsSteady := by
  intro ms hms path hpath
  obtain ⟨q, t, hlocate, hq⟩ := hapart path hpath
  have hstill := (Run.locate_along hcache hat hlocate hq ms hms).2
  rw [Reviewer.load_of_locate hlocate, Reviewer.load_of_locate hstill]

end Scan

end LineReview
