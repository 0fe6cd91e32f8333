import LineReview.Proofs.ProjectFile.Accepted

/-!
# Effects of a project file

Every setting that a project file can change has a place there. What a file assigns to
that place last is what the setting becomes, as long as the file spells the key as
the place does. In another spelling the key is accepted and its value is checked
like any other, but the setting stays as it was.
-/

namespace LineReview

/-- One of the settings of a scan. -/
inductive Setting where
  | extensions
  | ignoreFile
  | jobs
  | maxLineLength
  | measure
  | indent
  | mixedIndent
  | indentWidth
  | tabWidth
  | layoutSeverity
  | skipComments
  | skipUsingDirectives
  | enumerators
  | namingSeverity
  | maxDiagnostics
deriving DecidableEq, Repr

namespace Setting

/-- What a setting is, or is given. -/
inductive Content where
  | texts (ts : List Text)
  | text (t : Text)
  | number (n : Int64)
  | switch (b : Bool)
  | severity (s : Severity)
deriving DecidableEq, Repr

/-- A list of strings. -/
def texts? : List Toml.Value → Option (List Text)
  | [] => some []
  | .string t :: rest => (texts? rest).map (t :: ·)
  | _ :: _ => none

/-- A value of a document as content; tables, dates and fractions are none. -/
def Content.ofToml? : Toml.Value → Option Content
  | .string t => some (.text t)
  | .integer n => some (.number n)
  | .bool b => some (.switch b)
  | .array items => (texts? items).map .texts
  | _ => none

/-- Where project files have the setting. The number of diagnostics is left to the command line. -/
def place? : Setting → Option ProjectFile.Place
  | extensions => some ⟨"scan", "extensions", .texts⟩
  | ignoreFile => some ⟨"scan", "ignore_file", .text⟩
  | jobs => some ⟨"scan", "jobs", .integer⟩
  | maxLineLength => some ⟨"format", "max_line_length", .integer⟩
  | measure => some ⟨"format", "measure", .text⟩
  | indent => some ⟨"format", "indent", .switch⟩
  | mixedIndent => some ⟨"format", "mixed_indent", .switch⟩
  | indentWidth => some ⟨"format", "indent_width", .integer⟩
  | tabWidth => some ⟨"format", "tab_width", .integer⟩
  | layoutSeverity => some ⟨"format", "severity", .text⟩
  | skipComments => some ⟨"classifier", "skip_comments", .switch⟩
  | skipUsingDirectives => some ⟨"classifier", "skip_using_directives", .switch⟩
  | enumerators => some ⟨"classifier", "enumerators", .switch⟩
  | namingSeverity => some ⟨"naming", "severity", .text⟩
  | maxDiagnostics => none

/-- What the setting becomes when it is given some content: measures and severities are given by
their names. -/
def meaning? : Setting → Content → Option Content
  | measure, .text t => (LayoutOptions.measure? t).map .text
  | layoutSeverity, .text t => (Severity.parse? t).map .severity
  | namingSeverity, .text t => (Severity.parse? t).map .severity
  | _, c => some c

theorem isListed {σ : Setting} {p : ProjectFile.Place} (h : σ.place? = some p) : p.IsListed := by
  cases σ <;> cases h <;> exact ⟨by decide, by decide⟩

def all : List Setting :=
  [extensions, ignoreFile, jobs, maxLineLength, measure, indent, mixedIndent, indentWidth, tabWidth,
    layoutSeverity, skipComments, skipUsingDirectives, enumerators, namingSeverity, maxDiagnostics]

theorem exists_place : ∀ sect ∈ ProjectFile.sections, ∀ field ∈ ProjectFile.fields sect,
    ∃ σ ∈ all, σ.place? = some ⟨sect, field.1, field.2⟩ := by decide

/-- Every known key in a section means a setting. -/
theorem exists_isMeantBy {key : Toml.Key} (hknown : ProjectFile.isKnown key = true)
    (hdeep : 2 ≤ key.length) : ∃ (σ : Setting) (p : ProjectFile.Place),
      σ.place? = some p ∧ p.isMeantBy key = true := by
  match key with
  | [] | [_] => exact absurd hdeep (by simp)
  | _ :: _ :: _ :: _ => cases hknown
  | [s, k] =>
      obtain ⟨field, hfield⟩ := Option.isSome_iff_exists.mp hknown
      obtain ⟨sect, hsect, hfield⟩ := Option.bind_eq_some_iff.mp hfield
      obtain ⟨σ, _, hσ⟩ := exists_place sect (List.mem_of_find?_eq_some hsect) field
        (List.mem_of_find?_eq_some hfield)
      refine ⟨σ, _, hσ, ?_⟩
      have hs := List.find?_some hsect
      have hk := List.find?_some hfield
      rw [ProjectFile.Place.isMeantBy, Bool.and_eq_true]
      exact ⟨hs, hk⟩

end Setting

/-- The content of a setting. -/
def Settings.get (s : Settings) : Setting → Setting.Content
  | .extensions => .texts s.walk.extensions
  | .ignoreFile => .text s.walk.ignoreFile
  | .jobs => .number s.jobs
  | .maxLineLength => .number s.review.layout.maxLineLength
  | .measure => .text s.review.layout.measure
  | .indent => .switch s.review.layout.indent
  | .mixedIndent => .switch s.review.layout.mixedIndent
  | .indentWidth => .number s.review.layout.indentWidth
  | .tabWidth => .number s.review.layout.tabWidth
  | .layoutSeverity => .severity s.review.layout.severity
  | .skipComments => .switch s.review.classifier.skipComments
  | .skipUsingDirectives => .switch s.review.classifier.skipUsingDirectives
  | .enumerators => .switch s.review.classifier.enumerators
  | .namingSeverity => .severity s.review.namingSeverity
  | .maxDiagnostics => .number s.review.maxDiagnostics

/-- There is nothing to settings but their contents. -/
theorem Settings.eq_of_get {s s' : Settings} (h : ∀ σ, s.get σ = s'.get σ) : s = s' := by
  obtain ⟨⟨⟨⟩, ⟨⟩, _, _⟩, ⟨⟩, _⟩ := s
  obtain ⟨⟨⟨⟩, ⟨⟩, _, _⟩, ⟨⟩, _⟩ := s'
  have hall : ∀ σ ∈ Setting.all, _ := fun σ _ => h σ
  simp only [Setting.all, List.forall_mem_cons, Settings.get, Setting.Content.texts.injEq,
    Setting.Content.text.injEq, Setting.Content.number.injEq, Setting.Content.switch.injEq,
    Setting.Content.severity.injEq] at hall
  simp [hall]

namespace ProjectFile

open Setting (Content)

/-! ## Settings from a file -/

/-- The content that a file has at a place, whatever the spelling. -/
def content (f : ProjectFile) (p : Place) : Content :=
  match p.kind with
  | .texts => .texts (f.texts p.sect p.word)
  | .text => .text (f.text p.sect p.word)
  | .integer => .number (f.integer p.sect p.word)
  | .switch => .switch (f.switch p.sect p.word)

variable {f : ProjectFile}

theorem texts?_of_value? {sect word : String} {items : List Toml.Value}
    (hvalue : f.value? sect word = some (.array items))
    (hfits : Kind.texts.fits (.array items) = true) :
    Setting.texts? items = some (f.texts sect word) := by
  rw [texts, hvalue]
  -- The induction is on the items alone; the file has played its part.
  clear hvalue
  induction items with
  | nil => rfl
  | cons v rest ih =>
      rw [Kind.fits, List.all_cons, Bool.and_eq_true] at hfits
      obtain ⟨hv, hrest⟩ := hfits
      cases v with
      | string t =>
          rw [Setting.texts?, ih hrest]
          rfl
      | _ => cases hv

theorem ofToml?_of_value? {p : Place} {v : Toml.Value} (hvalue : f.value? p.sect p.word = some v)
    (hfits : p.kind.fits v = true) : Content.ofToml? v = some (f.content p) := by
  rw [content]
  cases hkind : p.kind <;> rw [hkind] at hfits <;> cases v <;> try cases hfits
  case texts.array items =>
    rw [Content.ofToml?, texts?_of_value? hvalue hfits]
    rfl
  case text.string t => rw [text, hvalue, Content.ofToml?]
  case integer.integer n => rw [integer, hvalue, Content.ofToml?]
  case switch.bool b => rw [switch, hvalue, Content.ofToml?]

/-- A defined key sets its setting to what the file has for it. -/
theorem meaning?_content (hsound : f.IsSound) {σ : Setting} {p : Place} (hplace : σ.place? = some p)
    (hdefines : f.defines p.sect p.word = true) (old : Settings) :
    σ.meaning? (f.content p) = some ((f.apply old).get σ) := by
  cases σ <;> cases hplace <;>
    simp only [content, Setting.meaning?, Settings.get, ProjectFile.apply, if_pos hdefines]
  case measure.refl =>
    obtain ⟨m, hm⟩ := Option.isSome_iff_exists.mp hsound.measure
    rw [hm]
    rfl
  case layoutSeverity.refl =>
    obtain ⟨sev, hsev⟩ := Option.isSome_iff_exists.mp (hsound.severity _ (by simp) hdefines)
    rw [hsev]
    rfl
  case namingSeverity.refl =>
    obtain ⟨sev, hsev⟩ := Option.isSome_iff_exists.mp (hsound.severity _ (by simp) hdefines)
    rw [hsev]
    rfl

/-- Without its key a setting stays as it was. -/
theorem get_apply_of_not_defines {σ : Setting}
    (hnot : ∀ p, σ.place? = some p → f.defines p.sect p.word = false) (old : Settings) :
    (f.apply old).get σ = old.get σ := by
  cases σ
  case maxDiagnostics => rfl
  all_goals simp [Settings.get, ProjectFile.apply, hnot _ rfl]

/-- A key that occurs in its own spelling only sets its setting to the value at the key. -/
theorem IsAccepted.meaning?_of_get? {content : Text} (h : IsAccepted content f) {σ : Setting}
    {p : Place} (hplace : σ.place? = some p) {v : Toml.Value}
    (hexact : ∀ s k w, f.document.root.get? [s, k] = some w → p.isMeantBy [s, k] = true →
      [s, k] = p.key)
    (hget : f.document.root.get? p.key = some v) (old : Settings) :
    (Content.ofToml? v).bind σ.meaning? = some ((f.apply old).get σ) := by
  have hp := Setting.isListed hplace
  obtain ⟨u, hs, hk⟩ := Toml.Table.get?_pair.mp hget
  obtain ⟨_, heq, hfits⟩ := h.fits hp hp.isMeantBy_key hs
  cases heq
  rw [ofToml?_of_value? (h.value?_of_get? hp hexact hget) (hfits v hk)]
  refine meaning?_content h.sound hplace ?_ old
  rw [defines, show f.document.root.get? [bytes p.sect, bytes p.word] = some v from hget]
  rfl

/-! ## Assignments -/

/-- In a file where no section itself is assigned something else than a table, every assignment
means a setting. A setting that is assigned in its own spelling only becomes what was assigned to it
last, and one that is never assigned in its own spelling stays as it was. -/
theorem assignments_take_effect {fs : FileSystem} {path content : Text}
    (hread : fs.read path = .ok content) (hload : load fs path = .ok f)
    (hdeep : ∀ a ∈ Toml.assignments content, 2 ≤ a.1.length) (old : Settings) :
    (∀ a ∈ Toml.assignments content, ∃ (σ : Setting) (p : Place),
      σ.place? = some p ∧ p.isMeantBy a.1 = true ∧
        ((∀ b ∈ Toml.assignments content, p.isMeantBy b.1 = true → b.1 = p.key) →
          ∃ x, Toml.assigned? a.1 (Toml.assignments content) = some x ∧
            (Content.ofToml? x.value).bind σ.meaning? = some ((f.apply old).get σ))) ∧
      ∀ σ : Setting, (∀ a ∈ Toml.assignments content, ∀ p, σ.place? = some p → a.1 ≠ p.key) →
        (f.apply old).get σ = old.get σ := by
  obtain ⟨content', hread', h⟩ := isAccepted_of_load hload
  rw [hread] at hread'
  cases hread'
  constructor
  · intro a ha
    have hknown := h.known _ (Toml.Document.mem_keys_of_mem_assignments h.read ha)
    obtain ⟨σ, p, hplace, hmeant⟩ := Setting.exists_isMeantBy hknown (hdeep a ha)
    refine ⟨σ, p, hplace, hmeant, ?_⟩
    intro hexact
    have hp := Setting.isListed hplace
    obtain ⟨key, y⟩ := a
    obtain rfl : key = p.key := hexact _ ha hmeant
    obtain ⟨v, hget⟩ := h.exists_get? hp hdeep hmeant ha
    obtain ⟨x, hx, rfl⟩ := h.assigned?_of_get? hp hdeep hmeant hget
    refine ⟨x, hx, h.meaning?_of_get? hplace ?_ hget old⟩
    -- What the document has in another spelling would have been assigned in it.
    intro s k w hw hmeant'
    obtain ⟨y', hy', _⟩ := h.assigned?_of_get? hp hdeep hmeant' hw
    exact hexact _ (Toml.mem_of_assigned? hy') hmeant'
  · intro σ hnever
    refine get_apply_of_not_defines ?_ old
    intro p hplace
    have hp := Setting.isListed hplace
    rw [Bool.eq_false_iff]
    intro hdefines
    obtain ⟨v, hget⟩ := Option.isSome_iff_exists.mp hdefines
    obtain ⟨x, hx, _⟩ := h.assigned?_of_get? hp hdeep hp.isMeantBy_key hget
    exact hnever _ (Toml.mem_of_assigned? hx) p hplace rfl

/-- One file in a folder of its own. -/
def oneFile (content : Text) : FileSystem :=
  { root := .folder (.cons (bytes "c.toml") (.file content) .nil), here := [] }

theorem exists_load (fs : FileSystem) (path : Text) (P : ProjectFile → Prop) [DecidablePred P]
    (h : (load fs path).toOption.any P = true) : ∃ f, load fs path = .ok f ∧ P f := by
  obtain ⟨f, hf, hP⟩ := (Option.any_eq_true ..).mp h
  cases hload : load fs path with
  | ok f' =>
      rw [hload] at hf
      cases hf
      exact ⟨f, rfl, of_decide_eq_true hP⟩
  | error e =>
      rw [hload] at hf
      cases hf

/-- The first key is in its own spelling, the second is not. -/
def mixedText : Text := bytes "[format]\ntab_width = 8\n[Scan]\njobs = 3\n"

theorem assignments_take_effect_mixed : ∃ f, load (oneFile mixedText) (bytes "c.toml") = .ok f ∧
    (f.apply {}).review.layout.tabWidth = 8 ∧ (f.apply {}).jobs = 0 := by
  obtain ⟨f, hload, _⟩ :=
    exists_load (oneFile mixedText) (bytes "c.toml") (fun _ => True) (by decide)
  obtain ⟨heffect, hnever⟩ := assignments_take_effect (by rfl) hload (by decide) {}
  refine ⟨f, hload, ?_, ?_⟩
  · obtain ⟨σ, p, hplace, hmeant, hset⟩ :=
      heffect ([bytes "format", bytes "tab_width"], .integer 8) List.mem_cons_self
    obtain rfl : σ = .tabWidth := by
      cases σ <;> cases hplace <;> first | rfl | exact absurd hmeant (by decide)
    cases hplace
    obtain ⟨x, hx, hget⟩ := hset (by decide)
    obtain rfl : x = .integer 8 := Option.some.inj (hx.symm.trans (by rfl))
    exact (Content.number.inj (Option.some.inj hget)).symm
  · have hjobs := hnever .jobs (by rintro a ha p ⟨⟩; revert a; decide)
    exact Content.number.inj hjobs

/-- An accepted file assigns a number of workers, and the setting stays as it was. -/
theorem jobs_of_capital_section :
    ∃ f, load (oneFile (bytes "[Scan]\njobs = 3\n")) (bytes "c.toml") = .ok f ∧
      ([bytes "Scan", bytes "jobs"], .integer 3) ∈ Toml.assignments (bytes "[Scan]\njobs = 3\n") ∧
      f.integer "scan" "jobs" = 3 ∧ (f.apply {}).jobs = 0 := by
  obtain ⟨f, hload, hjobs⟩ := exists_load (oneFile (bytes "[Scan]\njobs = 3\n")) (bytes "c.toml")
    (fun f => f.integer "scan" "jobs" = 3 ∧ (f.apply {}).jobs = 0) (by decide)
  exact ⟨f, hload, List.mem_cons_self, hjobs⟩

end ProjectFile

end LineReview
