import LineReview.ProjectFile
import LineReview.Proofs.Toml.Keys
import LineReview.Proofs.Toml.LastAssignment

/-!
# Project files that are accepted

A file is accepted when it can be read, every known name has a value of its kind, every
key is known and the values pass their checks. Two views of a file then have to be
told apart: `defines` looks for a key in its own spelling, while the values are found in
whatever spelling. They agree on a key that occurs in its own spelling only.
-/

namespace LineReview.ProjectFile

open Toml (Document Table)

/-! ## Places -/

/-- Where a value can stand in a project file, and what kind it has there. -/
structure Place where
  sect : String
  word : String
  kind : Kind
deriving DecidableEq, Repr

namespace Place

variable {p : Place} {s k : Text}

/-- The key of the place in its own spelling. -/
def key (p : Place) : Toml.Key := [bytes p.sect, bytes p.word]

/-- Does the key mean the place, in whatever spelling? -/
def isMeantBy (p : Place) : Toml.Key → Bool
  | [s, k] => spells p.sect s && spells p.word k
  | _ => false

/-- The place is one of those that sections and their keys are looked up in. -/
structure IsListed (p : Place) : Prop where
  sect : section? (bytes p.sect) = some p.sect
  field : field? p.sect (bytes p.word) = some (p.word, p.kind)

theorem isMeantBy_pair : p.isMeantBy [s, k] = true ↔
    Text.foldWord s = bytes p.sect ∧ Text.foldWord k = bytes p.word := by
  simp [isMeantBy, spells]

namespace IsListed

theorem isMeantBy_key (h : p.IsListed) : p.isMeantBy p.key = true := by
  have hsect := List.find?_some h.sect
  have hword := List.find?_some h.field
  rw [key, isMeantBy, Bool.and_eq_true]
  exact ⟨hsect, hword⟩

/-- All spellings of a section mean what its own does. -/
theorem section?_eq (h : p.IsListed)
    (hmeant : p.isMeantBy [s, k] = true) : section? s = some p.sect := by
  obtain ⟨hs, _⟩ := isMeantBy_pair.mp hmeant
  obtain ⟨hown, _⟩ := isMeantBy_pair.mp h.isMeantBy_key
  rw [← h.sect]
  simp only [section?, spells, hs, hown]

theorem field?_eq (h : p.IsListed) (hmeant : p.isMeantBy [s, k] = true) :
    field? p.sect k = some (p.word, p.kind) := by
  obtain ⟨_, hk⟩ := isMeantBy_pair.mp hmeant
  obtain ⟨_, hown⟩ := isMeantBy_pair.mp h.isMeantBy_key
  rw [← h.field]
  simp only [field?, spells, hk, hown]

end IsListed

end Place

theorem Kind.not_isTable {kind : Kind} {v : Toml.Value} (h : kind.fits v = true) :
    v.isTable = false := by
  cases kind <;> cases v <;> first | rfl | cases h

/-! ## Acceptance -/

/-- What the checks of the values leave. -/
structure IsSound (f : ProjectFile) : Prop where
  extensions : f.defines "scan" "extensions" = true → f.texts "scan" "extensions" ≠ [] ∧
    ∀ e ∈ f.texts "scan" "extensions", isBlankExtension e = false
  jobs : 0 ≤ f.integer "scan" "jobs"
  positive : ∀ word ∈ ["max_line_length", "indent_width", "tab_width"],
    f.defines "format" word = true → 0 < f.integer "format" word
  measure : (LayoutOptions.measure? (f.text "format" "measure")).isSome = true
  severity : ∀ sect ∈ ["format", "naming"], f.defines sect "severity" = true →
    (Severity.parse? (f.text sect "severity")).isSome = true

theorem isSound_of_fault? {f : ProjectFile} (h : f.fault? = none) : f.IsSound := by
  rw [fault?] at h
  dsimp only at h
  split at h
  · cases h
  rename_i hempty
  split at h
  · cases h
  rename_i hblank
  -- One check after the other, up to the severities.
  repeat
    split at h
    · cases h
  rename_i hjobs hline hindent htab hmeasure hlayout hnaming
  have hpositive : ∀ word, ¬ (f.defines "format" word && f.integer "format" word ≤ 0) = true →
      f.defines "format" word = true → 0 < f.integer "format" word := by
    intro word hnot hdefines
    rw [hdefines, Bool.true_and, decide_eq_true_iff] at hnot
    exact Int64.not_le.mp hnot
  have hseverity : ∀ sect, ¬ (f.defines sect "severity" &&
      (Severity.parse? (f.text sect "severity")).isNone) = true →
      f.defines sect "severity" = true →
      (Severity.parse? (f.text sect "severity")).isSome = true := by
    intro sect hnot hdefines
    rw [hdefines, Bool.true_and, Option.isNone_iff_eq_none] at hnot
    exact Option.isSome_iff_ne_none.mpr hnot
  rw [Option.isNone_iff_eq_none] at hmeasure
  refine ⟨?_, Int64.not_lt.mp hjobs, ?_, Option.isSome_iff_ne_none.mpr hmeasure, ?_⟩
  · intro hdefines
    rw [if_pos hdefines, List.find?_eq_none] at hblank
    rw [hdefines, Bool.true_and, List.isEmpty_iff] at hempty
    exact ⟨hempty, by simpa using hblank⟩
  · simp only [List.forall_mem_cons]
    exact ⟨hpositive _ hline, hpositive _ hindent, hpositive _ htab, nofun⟩
  · simp only [List.forall_mem_cons]
    exact ⟨hseverity _ hlayout, hseverity _ hnaming, nofun⟩

/-- A file that was made from a text. -/
structure IsAccepted (content : Text) (f : ProjectFile) : Prop where
  read : Document.read? content = some f.document
  typed : isWellTyped f.document.root = true
  known : ∀ key ∈ f.document.keys, isKnown key = true
  sound : f.IsSound

theorem isAccepted_of_parse {path content : Text} {f : ProjectFile}
    (h : parse path content = .ok f) : IsAccepted content f := by
  rw [parse] at h
  split at h
  case h_1 => cases h
  case h_2 d hread =>
    dsimp only at h
    split at h
    case isTrue => cases h
    case isFalse htyped =>
      split at h
      case isTrue => cases h
      case isFalse hknown =>
        split at h
        case h_1 => cases h
        case h_2 hfault =>
          cases h
          refine ⟨hread, by simpa using htyped, ?_, isSound_of_fault? hfault⟩
          simpa [List.filter_eq_nil_iff] using hknown

theorem isAccepted_of_load {fs : FileSystem} {path : Text} {f : ProjectFile}
    (h : load fs path = .ok f) : ∃ content, fs.read path = .ok content ∧ IsAccepted content f := by
  rw [load] at h
  split at h
  case h_1 => cases h
  case h_2 content hread => exact ⟨content, hread, isAccepted_of_parse h⟩

/-- The value of a key is the one that it has in some spelling. -/
theorem value?_of_mem {f : ProjectFile} {sect word : String} {s k : Text} {u : Table}
    {v : Toml.Value} (hs : (s, .table u) ∈ f.document.root) (hsect : spells sect s = true)
    (hk : (k, v) ∈ u) (hword : spells word k = true) :
    ∃ s' k' u' v', (s', .table u') ∈ f.document.root ∧ spells sect s' = true ∧
      (k', v') ∈ u' ∧ spells word k' = true ∧ f.value? sect word = some v' := by
  rw [value?]
  generalize hentries : f.document.root.flatMap _ = entries
  have hmem : (k, v) ∈ entries := by
    rw [← hentries]
    refine List.mem_flatMap.mpr ⟨_, hs, ?_⟩
    dsimp only
    rwa [if_pos hsect]
  cases hfind : entries.reverse.find? fun e => spells word e.1 with
  | none => exact absurd hword (List.find?_eq_none.mp hfind _ (List.mem_reverse.mpr hmem))
  | some e =>
      have he := List.mem_reverse.mp (List.mem_of_find?_eq_some hfind)
      have hword' := List.find?_some hfind
      rw [← hentries] at he
      obtain ⟨⟨s', w⟩, hs', he⟩ := List.mem_flatMap.mp he
      dsimp only at he
      split at he
      case h_1 u' =>
        split at he
        case isTrue hsect' => exact ⟨s', e.1, u', e.2, hs', hsect', he, hword', rfl⟩
        case isFalse => cases he
      case h_2 => cases he

namespace IsAccepted

variable {content : Text} {f : ProjectFile} (h : IsAccepted content f) {p : Place}
  (hp : p.IsListed)
include h hp

/-- A known section is a table, and a known name in it has a value of its kind. -/
theorem fits {s k : Text} {w : Toml.Value} (hmeant : p.isMeantBy [s, k] = true)
    (hfind : f.document.root.find? s = some w) :
    ∃ u, w = .table u ∧ ∀ v, Table.find? u k = some v → p.kind.fits v = true := by
  have htyped := List.all_eq_true.mp h.typed _ (Table.mem_of_find? hfind)
  simp only [hp.section?_eq hmeant] at htyped
  split at htyped
  case h_1 hnone => cases hnone
  case h_2 u hsect =>
    cases hsect
    refine ⟨u, rfl, ?_⟩
    intro v hv
    have hfield := List.all_eq_true.mp htyped _ (Table.mem_of_find? hv)
    simpa only [hp.field?_eq hmeant] using hfield
  case h_3 => cases htyped

/-- A key that occurs in its own spelling only has the same value whatever the spelling. -/
theorem value?_of_get? {v : Toml.Value}
    (hexact : ∀ s k w, f.document.root.get? [s, k] = some w → p.isMeantBy [s, k] = true →
      [s, k] = p.key)
    (hget : f.document.root.get? p.key = some v) : f.value? p.sect p.word = some v := by
  obtain ⟨u, hs, hk⟩ := Table.get?_pair.mp hget
  have hown := hp.isMeantBy_key
  rw [Place.key, Place.isMeantBy, Bool.and_eq_true] at hown
  obtain ⟨s, k, t, w, hst, hsect, hkw, hword, hvalue⟩ :=
    value?_of_mem (Table.mem_of_find? hs) hown.1 (Table.mem_of_find? hk) hown.2
  -- Names are distinct, so an occurrence in the tables is what a look-up finds.
  have hmaps := Document.isMaps_read? h.read
  have hfind := hmaps.isMap.find?_of_mem hst
  have hget' : f.document.root.get? [s, k] = some w :=
    Table.get?_pair.mpr ⟨t, hfind, (hmaps.sections hfind).find?_of_mem hkw⟩
  have hkey : [s, k] = p.key := hexact s k w hget' (by rw [Place.isMeantBy, hsect, hword]; rfl)
  rw [hkey, hget] at hget'
  rw [hvalue, hget']

/-! ## Assignments -/

variable (hdeep : ∀ a ∈ Toml.assignments content, 2 ≤ a.1.length)
include hdeep

/-- What stands at a known key is what was assigned last. -/
theorem assigned?_of_get? {s k : Text} {v : Toml.Value} (hmeant : p.isMeantBy [s, k] = true)
    (hget : f.document.root.get? [s, k] = some v) :
    ∃ x, Toml.assigned? [s, k] (Toml.assignments content) = some x ∧ x.value = v := by
  obtain ⟨u, hs, hk⟩ := Table.get?_pair.mp hget
  obtain ⟨_, heq, hfits⟩ := h.fits hp hmeant hs
  cases heq
  exact (Document.reflects_read? h.read hdeep).assigned hs hk (Kind.not_isTable (hfits v hk))

/-- A known key that is assigned has a value. -/
theorem exists_get? {s k : Text} {x : Toml.Term} (hmeant : p.isMeantBy [s, k] = true)
    (hmem : ([s, k], x) ∈ Toml.assignments content) :
    ∃ v, f.document.root.get? [s, k] = some v := by
  obtain ⟨w, hs, hw⟩ := (Document.reflects_read? h.read hdeep).present hmem
  obtain ⟨u, rfl, _⟩ := h.fits hp hmeant hs
  obtain ⟨v, hk, _⟩ := hw u rfl
  exact ⟨v, Table.get?_pair.mpr ⟨u, hs, hk⟩⟩

end IsAccepted

end LineReview.ProjectFile
