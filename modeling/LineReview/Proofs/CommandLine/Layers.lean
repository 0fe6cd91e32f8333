import LineReview.CommandLine.Setup
import LineReview.Proofs.ProjectFile.Effects

/-!
# Layers of settings

Settings come from three layers: the standard values, a project file, the flags of the
command line. A setting is what the topmost layer gives that gives anything for it,
and nothing that is said about another setting matters. Whatever the layers say, the
layout options make sense, so that the rules use them as they are.
-/

namespace LineReview

open Setting (Content)

/-! ## What the layers give -/

/-- What the flags give for a setting. -/
def ScanFlags.given? (flags : ScanFlags) : Setting → Option Content
  | .extensions => flags.extensions.map .texts
  | .jobs => flags.jobs.map .number
  | .maxLineLength => flags.maxLineLength.map .number
  | .measure => flags.measure.map .text
  | .indent => flags.indent.map .switch
  | .mixedIndent => flags.mixedIndent.map .switch
  | .maxDiagnostics => flags.maxDiagnostics.map .number
  | .ignoreFile | .indentWidth | .tabWidth | .layoutSeverity | .skipComments
  | .skipUsingDirectives | .enumerators | .namingSeverity => none

namespace ProjectFile

/-- What a project file gives for a setting: the value at its key, in its own spelling. -/
def given? (f : ProjectFile) (σ : Setting) : Option Content :=
  (σ.place?.bind fun p => f.document.root.get? p.key).bind Content.ofToml?

/-- Is every section and every key in a section spelled as it is listed? -/
def isPlain (f : ProjectFile) : Bool :=
  f.document.root.all fun (s, v) => sections.any fun sect => s == bytes sect &&
    match v with
    | .table entries => entries.all fun (k, _) => (fields sect).any fun field => k == bytes field.1
    | _ => true

end ProjectFile

/-- A project file, if there is one, and flags. The file was accepted and is plain. -/
structure Setup.Layers where
  file : Option ProjectFile
  flags : ScanFlags
  accepted : ∀ f ∈ file, ∃ fs path, ProjectFile.load fs path = .ok f
  plain : ∀ f ∈ file, f.isPlain = true

namespace Setup.Layers

/-- What the topmost layer gives that gives anything. -/
def given? (l : Layers) (σ : Setting) : Option Content :=
  (l.flags.given? σ).or (l.file.bind (·.given? σ))

/-- The settings that the layers make. -/
def settings (l : Layers) : Except ScanFlagError Settings := l.flags.apply (fileSettings l.file)

end Setup.Layers

/-! ## Layout options that make sense -/

/-- The limits are positive, and the measure is one of the two. -/
structure LayoutOptions.IsSensible (o : LayoutOptions) : Prop where
  maxLineLength : 0 < o.maxLineLength
  indentWidth : 0 < o.indentWidth
  tabWidth : 0 < o.tabWidth
  measure : o.measure = bytes "runes" ∨ o.measure = bytes "cells"

namespace LayoutOptions

theorem measure?_cases {t m : Text} (h : measure? t = some m) :
    m = bytes "runes" ∨ m = bytes "cells" := by
  rw [measure?] at h
  split at h
  · exact .inl (Option.some.inj h).symm
  · split at h
    · exact .inr (Option.some.inj h).symm
    · cases h

/-- Options that make sense are used as they are. -/
theorem IsSensible.effective_eq {o : LayoutOptions} (h : o.IsSensible) : o.effective = o := by
  have hmeasure : o.measure ≠ [] := by
    rcases h.measure with heq | heq <;> rw [heq] <;> decide
  rw [effective, if_neg (Int64.not_le.mpr h.maxLineLength), if_neg hmeasure,
    if_neg (Int64.not_le.mpr h.indentWidth), if_neg (Int64.not_le.mpr h.tabWidth)]

end LayoutOptions

/-! ## The file -/

namespace ProjectFile

variable {f : ProjectFile}

/-- The words that are listed are their own folded forms. -/
theorem foldWord_listed : ∀ sect ∈ sections, Text.foldWord (bytes sect) = bytes sect ∧
    ∀ field ∈ fields sect, Text.foldWord (bytes field.1) = bytes field.1 := by decide

/-- A plain file has a key in its own spelling only. -/
theorem eq_key_of_isPlain (hplain : f.isPlain = true) {p : Place} {s k : Text} {v : Toml.Value}
    (hget : f.document.root.get? [s, k] = some v) (hmeant : p.isMeantBy [s, k] = true) :
    [s, k] = p.key := by
  obtain ⟨u, hs, hk⟩ := Toml.Table.get?_pair.mp hget
  obtain ⟨hsect, hword⟩ := Place.isMeantBy_pair.mp hmeant
  have hlisted := List.all_eq_true.mp hplain _ (Toml.Table.mem_of_find? hs)
  simp only [List.any_eq_true, Bool.and_eq_true, beq_iff_eq] at hlisted
  obtain ⟨sect, hmem, rfl, hentries⟩ := hlisted
  have hentry := List.all_eq_true.mp hentries _ (Toml.Table.mem_of_find? hk)
  simp only [List.any_eq_true, beq_iff_eq] at hentry
  obtain ⟨field, hfield, rfl⟩ := hentry
  obtain ⟨hfold, hfolds⟩ := foldWord_listed sect hmem
  rw [Place.key, ← hsect, ← hword, hfold, hfolds field hfield]

/-- An accepted plain file decides a setting by what it gives for it. -/
theorem get_apply {content : Text} (h : IsAccepted content f) (hplain : f.isPlain = true)
    (old : Settings) (σ : Setting) :
    some ((f.apply old).get σ) = (f.given? σ).elim (some (old.get σ)) σ.meaning? := by
  cases hplace : σ.place?.bind fun p => f.document.root.get? p.key with
  | none =>
      rw [given?, hplace]
      refine congrArg some (get_apply_of_not_defines ?_ old)
      intro p hp
      rw [hp, Option.bind_some] at hplace
      rw [defines, show f.document.root.get? [bytes p.sect, bytes p.word] = none from hplace]
      rfl
  | some v =>
      obtain ⟨p, hp, hget⟩ := Option.bind_eq_some_iff.mp hplace
      have hmeaning := h.meaning?_of_get? hp (fun _ _ _ => eq_key_of_isPlain hplain) hget old
      obtain ⟨c, hc, hmeaning⟩ := Option.bind_eq_some_iff.mp hmeaning
      rw [given?, hplace, Option.bind_some, hc]
      exact hmeaning.symm

theorem isSensible_apply (hsound : f.IsSound) {old : Settings}
    (hold : old.review.layout.IsSensible) : (f.apply old).review.layout.IsSensible := by
  have hpositive : ∀ word ∈ ["max_line_length", "indent_width", "tab_width"], ∀ n : Int64, 0 < n →
      0 < if f.defines "format" word then f.integer "format" word else n := by
    intro word hword n hn
    split
    · exact hsound.positive word hword ‹_›
    · exact hn
  refine ⟨hpositive _ (by simp) _ hold.maxLineLength, hpositive _ (by simp) _ hold.indentWidth,
    hpositive _ (by simp) _ hold.tabWidth, ?_⟩
  by_cases hdefines : f.defines "format" "measure" = true
  · obtain ⟨m, hm⟩ := Option.isSome_iff_exists.mp hsound.measure
    simp only [ProjectFile.apply, if_pos hdefines, hm]
    exact LayoutOptions.measure?_cases hm
  · simp only [ProjectFile.apply, if_neg hdefines]
    exact hold.measure

end ProjectFile

/-! ## The flags -/

namespace ScanFlags

variable {flags : ScanFlags} {old s : Settings}

/-- What flags do when they are accepted. -/
theorem apply_cases (h : flags.apply old = .ok s) :
    0 < flags.maxLineLength.getD 1 ∧
      ∃ m, flags.measure.elim (some old.review.layout.measure) LayoutOptions.measure? = some m ∧
        s = { review :=
                { old.review with
                  layout :=
                    { old.review.layout with
                      maxLineLength := flags.maxLineLength.getD old.review.layout.maxLineLength
                      measure := m
                      indent := flags.indent.getD old.review.layout.indent
                      mixedIndent := flags.mixedIndent.getD old.review.layout.mixedIndent }
                  maxDiagnostics := flags.maxDiagnostics.getD old.review.maxDiagnostics }
              walk := { old.walk with extensions := flags.extensions.getD old.walk.extensions }
              jobs := flags.jobs.getD old.jobs } := by
  rw [ScanFlags.apply] at h
  split at h
  case isTrue => cases h
  case isFalse hpositive =>
    refine ⟨Int64.not_le.mp hpositive, ?_⟩
    cases hmeasure : flags.measure with
    | none =>
        rw [hmeasure] at h
        cases h
        exact ⟨_, rfl, rfl⟩
    | some t =>
        rw [hmeasure] at h
        cases hm : LayoutOptions.measure? t with
        | none =>
            simp only [hm] at h
            cases h
        | some m =>
            simp only [hm] at h
            cases h
            exact ⟨m, hm, rfl⟩

/-- Accepted flags decide a setting by what they give for it. -/
theorem get_of_apply (h : flags.apply old = .ok s) (σ : Setting) :
    some (s.get σ) = (flags.given? σ).elim (some (old.get σ)) σ.meaning? := by
  obtain ⟨_, m, hm, rfl⟩ := apply_cases h
  obtain ⟨jobs, maxLineLength, measure, indent, mixedIndent, extensions, maxDiagnostics⟩ := flags
  cases σ
  case measure =>
    cases measure with
    | none =>
        cases hm
        rfl
    | some t => exact (congrArg (Option.map Content.text) hm).symm
  case extensions => cases extensions <;> rfl
  case jobs => cases jobs <;> rfl
  case maxLineLength => cases maxLineLength <;> rfl
  case indent => cases indent <;> rfl
  case mixedIndent => cases mixedIndent <;> rfl
  case maxDiagnostics => cases maxDiagnostics <;> rfl
  all_goals rfl

theorem isSensible_of_apply (h : flags.apply old = .ok s) (hold : old.review.layout.IsSensible) :
    s.review.layout.IsSensible := by
  obtain ⟨hlength, m, hm, rfl⟩ := apply_cases h
  refine ⟨?_, hold.indentWidth, hold.tabWidth, ?_⟩
  · cases hgiven : flags.maxLineLength with
    | none => exact hold.maxLineLength
    | some n =>
        rw [hgiven] at hlength
        exact hlength
  · cases hgiven : flags.measure with
    | none =>
        rw [hgiven] at hm
        cases hm
        exact hold.measure
    | some t =>
        rw [hgiven] at hm
        exact LayoutOptions.measure?_cases hm

end ScanFlags

/-! ## All layers -/

namespace Setup

variable {file : Option ProjectFile}
  (haccepted : ∀ f ∈ file, ∃ fs path, ProjectFile.load fs path = .ok f)
include haccepted

theorem get_fileSettings (hplain : ∀ f ∈ file, f.isPlain = true) (σ : Setting) :
    some ((fileSettings file).get σ) =
      (file.bind (·.given? σ)).elim (some (Settings.get {} σ)) σ.meaning? := by
  cases file with
  | none => rfl
  | some f =>
      obtain ⟨fs, path, hload⟩ := haccepted f rfl
      obtain ⟨content, _, h⟩ := ProjectFile.isAccepted_of_load hload
      exact ProjectFile.get_apply h (hplain f rfl) {} σ

theorem isSensible_fileSettings : (fileSettings file).review.layout.IsSensible := by
  have hstandard : ({} : Settings).review.layout.IsSensible :=
    ⟨by decide, by decide, by decide, .inl rfl⟩
  cases file with
  | none => exact hstandard
  | some f =>
      obtain ⟨fs, path, hload⟩ := haccepted f rfl
      obtain ⟨content, _, h⟩ := ProjectFile.isAccepted_of_load hload
      exact ProjectFile.isSensible_apply h.sound hstandard

end Setup

namespace Setup.Layers

theorem get_of_settings {l : Layers} {s : Settings} (h : l.settings = .ok s) (σ : Setting) :
    some (s.get σ) = (l.given? σ).elim (some (Settings.get {} σ)) σ.meaning? := by
  rw [ScanFlags.get_of_apply h, given?, get_fileSettings l.accepted l.plain]
  cases l.flags.given? σ <;> rfl

/-- A setting is what the flags give for it, else what the file gives, else the standard value.
Other layers that give the same for it, whatever they give for the others, make the same of it. The
layout options make sense, so that the rules use them as they are. -/
theorem settings_layered {l : Layers} {s : Settings} (h : l.settings = .ok s) :
    (∀ σ, some (s.get σ) = (l.given? σ).elim (some (Settings.get {} σ)) σ.meaning?) ∧
      (∀ (l' : Layers) (s' : Settings), l'.settings = .ok s' →
        (∀ σ, l'.given? σ = l.given? σ → s'.get σ = s.get σ) ∧
          ((∀ σ, l'.given? σ = l.given? σ) → s' = s)) ∧
      s.review.layout.IsSensible ∧ s.review.layout.effective = s.review.layout := by
  have hsensible := ScanFlags.isSensible_of_apply h (isSensible_fileSettings l.accepted)
  refine ⟨get_of_settings h, ?_, hsensible, hsensible.effective_eq⟩
  intro l' s' h'
  have hsame : ∀ σ, l'.given? σ = l.given? σ → s'.get σ = s.get σ := by
    intro σ hgiven
    have hget := get_of_settings h' σ
    rw [hgiven, ← get_of_settings h] at hget
    exact Option.some.inj hget
  exact ⟨hsame, fun hgiven => Settings.eq_of_get fun σ => hsame σ (hgiven σ)⟩

/-- A line length from the flags over one from the file, and a tab width from the file. -/
theorem settings_layered_over : ∃ (l : Layers) (s : Settings), l.settings = .ok s ∧
    l.file.bind (·.given? .maxLineLength) = some (.number 100) ∧
    s.review.layout.maxLineLength = 80 ∧ s.review.layout.tabWidth = 8 ∧
    s.review.layout.indentWidth = 4 ∧ s.review.layout.effective = s.review.layout := by
  obtain ⟨f, hload, hplain, hlength, htab, hindent⟩ :=
    ProjectFile.exists_load
      (ProjectFile.oneFile (bytes "[format]\nmax_line_length = 100\ntab_width = 8\n"))
      (bytes "c.toml")
      (fun f => f.isPlain = true ∧ f.given? .maxLineLength = some (.number 100) ∧
        f.given? .tabWidth = some (.number 8) ∧ f.given? .indentWidth = none) (by decide)
  let l : Layers :=
    { file := some f
      flags := { maxLineLength := some 80 }
      accepted := by rintro _ ⟨⟩; exact ⟨_, _, hload⟩
      plain := by rintro _ ⟨⟩; exact hplain }
  obtain ⟨s, hs⟩ : ∃ s, l.settings = .ok s := ⟨_, rfl⟩
  obtain ⟨hget, _, _, heffective⟩ := settings_layered hs
  have htab' : l.given? .tabWidth = some (.number 8) := htab
  have hindent' : l.given? .indentWidth = none := hindent
  refine ⟨l, s, hs, hlength, ?_, ?_, ?_, heffective⟩
  · exact Content.number.inj (Option.some.inj (hget .maxLineLength))
  · have hset := hget .tabWidth
    rw [htab'] at hset
    exact Content.number.inj (Option.some.inj hset)
  · have hset := hget .indentWidth
    rw [hindent'] at hset
    exact Content.number.inj (Option.some.inj hset)

end Setup.Layers

end LineReview
