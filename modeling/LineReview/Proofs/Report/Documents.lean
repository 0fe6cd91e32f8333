import LineReview.Report.Machine
import LineReview.Proofs.Report.Lines
import LineReview.Proofs.Review.Locality
import LineReview.Proofs.Scan.Runs

/-!
# Reports as documents

Programs read findings back from the documents of a report: from the JSON report
file by file, and from the SARIF log result by result. Both give the findings of
the report, in its order (`jsonFindings_document`, `sarifFindings_log`), and the same
files that could not be reviewed.

A result of the log points at its rule by a place in the list of rules. The
place of a code that is not on the list is that of another rule, so it matters
that no review finds anything under such a code (`known_of_source`). Only a cache
could bring one in.
-/

namespace LineReview

/-! ## Codes that rules have -/

/-- The code is one of those in the list of rules. -/
def Code.IsKnown (c : Code) : Prop := c ∈ Code.catalogue.map (·.1)

/-- A known code stands in the list of rules at its place. -/
theorem Code.IsKnown.getElem?_ruleIndex {c : Code} (h : c.IsKnown) :
    (Code.catalogue[Report.SarifLog.ruleIndex c]?).map (·.1) = some c := by
  have hall : ∀ c ∈ Code.catalogue.map (·.1),
      (Code.catalogue[Report.SarifLog.ruleIndex c]?).map (·.1) = some c := by
    decide
  exact hall c h

theorem Bag.of_mem_addAll {b : Bag} {ds : List Diagnostic} {d : Diagnostic}
    (h : d ∈ (b.addAll ds).items) : d ∈ b.items ∨ d ∈ ds := by
  induction ds generalizing b with
  | nil => exact .inl h
  | cons e ds ih =>
      rcases ih h with hadd | hrest
      · unfold add at hadd
        split at hadd
        · rcases List.mem_append.mp hadd with hold | hnew
          · exact .inl hold
          · exact .inr (List.mem_singleton.mp hnew ▸ List.mem_cons_self)
        · exact .inl hadd
      · exact .inr (List.mem_cons_of_mem _ hrest)

namespace Review

/-- Every rule that a line can break has a known code. -/
theorem known_of_mem_findings {widths : Text.Widths} {o : ReviewOptions} {n : UInt32} {line : Text}
    {sites : List Site} {d : Diagnostic} (h : d ∈ findings widths o n line sites) :
    d.code.IsKnown := by
  have hnaming : ∀ c ∈ Code.naming, c ∈ Code.catalogue.map (·.1) := by decide
  have hlayout : ∀ c ∈ [Code.lineLength, Code.indentWidth, Code.mixedIndent],
      c ∈ Code.catalogue.map (·.1) := by
    decide
  rcases List.mem_append.mp h with hd | hd
  · obtain ⟨s, _, hs⟩ := List.mem_filterMap.mp hd
    rw [Site.check_eq_some hs]
    exact hnaming _ (Rule.code_forSite_mem s)
  · exact hlayout _ ((Layout.codes_check widths o.layout line n).subset (List.mem_map_of_mem hd))

theorem known_of_addAll {widths : Text.Widths} {o : ReviewOptions} {n : UInt32} {line : Text}
    {sites : List Site} {b : Bag} (hb : ∀ d ∈ b.items, d.code.IsKnown) :
    ∀ d ∈ (b.addAll (findings widths o n line sites)).items, d.code.IsKnown := by
  intro d hd
  rcases Bag.of_mem_addAll hd with hold | hnew
  · exact hb d hold
  · exact known_of_mem_findings hnew

section

variable {widths : Text.Widths} {o : ReviewOptions} {classify : LineClassifier} {b b' : Bag}

theorem known_of_addLines {ls : List (UInt32 × Text)}
    (h : addLines widths o classify b ls = .ok b') (hb : ∀ d ∈ b.items, d.code.IsKnown) :
    ∀ d ∈ b'.items, d.code.IsKnown := by
  induction ls generalizing b with
  | nil =>
      cases h
      exact hb
  | cons l ls ih =>
      rw [addLines] at h
      split at h
      · cases h
      · exact ih h (known_of_addAll hb)

theorem known_of_addFrom {f : SourceFile} {count n : UInt32} {rounds : Nat}
    (h : addFrom widths o classify f count rounds n b = some (.ok b'))
    (hb : ∀ d ∈ b.items, d.code.IsKnown) : ∀ d ∈ b'.items, d.code.IsKnown := by
  induction rounds generalizing n b with
  | zero => cases h
  | succ rounds ih =>
      rw [addFrom] at h
      split at h
      · split at h
        · cases h
        · split at h
          · cases h
          · exact ih h (known_of_addAll hb)
      · cases h
        exact hb

theorem known_of_outcome? {f : SourceFile} {ds : List Diagnostic}
    (h : outcome? widths o classify f = some (.ok ds)) : ∀ d ∈ ds, d.code.IsKnown := by
  have hempty : ∀ d ∈ (Bag.empty o.maxDiagnostics).items, d.code.IsKnown := nofun
  have hitems : ∀ {x : Except Text Bag}, x.map (·.items) = .ok ds →
      ∃ b, x = .ok b ∧ b.items = ds := by
    intro x hx
    cases x with
    | error e => cases hx
    | ok b => exact ⟨b, rfl, Except.ok.inj hx⟩
  rw [outcome?] at h
  split at h
  · obtain ⟨b, hb, rfl⟩ := hitems (Option.some.inj h)
    exact known_of_addLines hb hempty
  · rw [byNumber] at h
    split at h
    · cases h
    · obtain ⟨x, hx, hds⟩ := Option.map_eq_some_iff.mp h
      obtain ⟨b, rfl, rfl⟩ := hitems hds
      exact known_of_addFrom hx hempty

end

end Review

/-- A review finds nothing under an unknown code, whatever the classifier says. -/
theorem Reviewer.known_of_source {r : Reviewer} {path : Text} {f : SourceFile}
    {ds : List Diagnostic} (h : r.source path f = some (.ok ds)) : ∀ d ∈ ds, d.code.IsKnown :=
  Review.known_of_outcome? (Reviewer.source_eq_ok_iff.mp h)

namespace Scan

/-- What a worker has found is what a review has found, or nothing yet. -/
theorem Worker.Agrees.found {r : Reviewer} {fs : FileSystem} {w : Worker} (h : w.Agrees r fs)
    (hnone : w.failure = none) :
    w.diagnostics = [] ∨ ∃ f, r.source w.path f = some (.ok w.diagnostics) := by
  have hempty (hclean : w.answer = .ok []) : w.diagnostics = [] := (answer_eq_ok_iff.mp hclean).2
  have hreviewed (hfile : r.file fs w.path = some w.answer) :
      ∃ f, r.source w.path f = some (.ok w.diagnostics) := by
    rw [answer_eq_ok_iff.mpr ⟨hnone, rfl⟩, Reviewer.file] at hfile
    split at hfile
    · exact ⟨_, hfile⟩
    · cases hfile
  unfold Agrees at h
  cases hstage : w.stage with
  | waiting | admitted | opened | begun | dropped =>
      rw [hstage] at h
      exact .inl (hempty h)
  | loaded f | kept f | missed f =>
      rw [hstage] at h
      exact .inl (hempty h.1)
  | reporting f rest =>
      rw [hstage] at h
      exact .inr ⟨f, h.2.2⟩
  | storing f =>
      rw [hstage] at h
      exact .inr ⟨f, h.2.2⟩
  | settled | recorded | closing | finished =>
      rw [hstage] at h
      exact .inr (hreviewed h)
  | returning error? =>
      rw [hstage] at h
      cases error? with
      | none => exact .inr (hreviewed h)
      | some e => exact .inl (hempty h)

theorem Run.known_of_mem_files {r : Run} (hcache : r.options.cache = none) {f : FileResult}
    (hf : f ∈ r.result.files) : ∀ d ∈ f.diagnostics, d.code.IsKnown := by
  obtain ⟨w, hw, hlisted⟩ := List.mem_filterMap.mp hf
  split at hlisted
  · rename_i hclean
    cases hlisted
    rw [Bool.and_eq_true, Option.isNone_iff_eq_none] at hclean
    rcases (agrees_bare hcache w hw).2.found hclean.1 with hnil | ⟨source, hsource⟩
    · rw [hnil]
      nofun
    · exact Reviewer.known_of_source hsource
  · cases hlisted

end Scan

/-! ## Reading documents -/

namespace JsonValue

/-- The member of an object with a key; `null` when there is none. -/
def member (key : String) : JsonValue → JsonValue
  | object members => (members.lookup key).getD null
  | _ => null

/-- The items of an array. -/
def items : JsonValue → List JsonValue
  | array xs => xs
  | _ => []

/-- The first item of an array. -/
def first (v : JsonValue) : JsonValue := v.items.head?.getD null

/-- A number that is left out where it is zero. -/
def orZero : JsonValue → JsonValue
  | null => nat 0
  | v => v

end JsonValue

namespace Report

/-- What a document says about one finding. -/
structure Finding where
  path : JsonValue
  code : JsonValue
  line : JsonValue
  col : JsonValue
  message : JsonValue

def Finding.ofDiagnostic (path : Text) (d : Diagnostic) : Finding :=
  { path := .string path, code := .string d.code.id, line := .nat d.line.toNat,
    col := .nat d.col.toNat, message := .string d.message }

/-- The files of the JSON report, each with its path and its diagnostics. -/
def jsonFiles (document : JsonValue) : List (JsonValue × List JsonValue) :=
  (document.member "files").items.map fun f => (f.member "path", (f.member "diagnostics").items)

/-- The findings that the JSON report lists. -/
def jsonFindings (document : JsonValue) : List Finding :=
  (jsonFiles document).flatMap fun f =>
    f.2.map fun d =>
      { path := f.1, code := d.member "code", line := d.member "line",
        col := (d.member "col").orZero, message := d.member "message" }

/-- Path and error of the files that could not be reviewed, by the JSON report. -/
def jsonFailures (document : JsonValue) : List (JsonValue × JsonValue) :=
  (document.member "failures").items.map fun f => (f.member "path", f.member "error")

/-- The run of a SARIF log. -/
def sarifRun (log : JsonValue) : JsonValue := (log.member "runs").first

def sarifInvocation (log : JsonValue) : JsonValue := ((sarifRun log).member "invocations").first

/-- The rules of a SARIF log. -/
def sarifRules (log : JsonValue) : List JsonValue :=
  ((((sarifRun log).member "tool").member "driver").member "rules").items

def sarifResults (log : JsonValue) : List JsonValue := ((sarifRun log).member "results").items

/-- Where a result or a notification belongs. -/
def sarifPlace (v : JsonValue) : JsonValue := (v.member "locations").first.member "physicalLocation"

def sarifPath (v : JsonValue) : JsonValue := ((sarifPlace v).member "artifactLocation").member "uri"

def sarifMessage (v : JsonValue) : JsonValue := (v.member "message").member "text"

/-- The findings that the SARIF log lists. -/
def sarifFindings (log : JsonValue) : List Finding :=
  (sarifResults log).map fun v =>
    { path := sarifPath v, code := v.member "ruleId"
      line := ((sarifPlace v).member "region").member "startLine"
      col := (((sarifPlace v).member "region").member "startColumn").orZero
      message := sarifMessage v }

/-- Path and error of the files that could not be reviewed, by the SARIF log. -/
def sarifFailures (log : JsonValue) : List (JsonValue × JsonValue) :=
  ((sarifInvocation log).member "toolExecutionNotifications").items.map fun v =>
    (sarifPath v, sarifMessage v)

/-! ## What the documents say -/

section

variable (s : Spelling) (o : SarifOptions) (r : Report)

/-- The findings of the report, with paths as they are spelled. -/
def findings : List Finding :=
  r.files.flatMap fun f => f.diagnostics.map (Finding.ofDiagnostic (s.path f.path))

/-- The files that could not be reviewed, with paths as they are spelled. -/
def failures : List (JsonValue × JsonValue) :=
  r.problems.map fun p => (.string (s.path p.path), .string p.message)

theorem length_findings : (r.findings s).length = r.count := by
  simp [findings, count, List.length_flatMap]

theorem jsonFiles_json (x : Summary) :
    jsonFiles x.json =
      x.files.map fun f => (.string f.path, f.diagnostics.map Summary.diagnosticJson) :=
  List.map_map

/-- What the JSON report shows of a diagnostic: a column of zero is left out. -/
theorem finding_diagnosticJson (path : Text) (d : Diagnostic) :
    { path := .string path
      code := (Summary.diagnosticJson d).member "code"
      line := (Summary.diagnosticJson d).member "line"
      col := ((Summary.diagnosticJson d).member "col").orZero
      message := (Summary.diagnosticJson d).member "message" } = Finding.ofDiagnostic path d := by
  by_cases hcol : d.col = 0
  · rw [Summary.diagnosticJson, if_pos hcol, Finding.ofDiagnostic, hcol]
    rfl
  · rw [Summary.diagnosticJson, if_neg hcol]
    rfl

theorem jsonFindings_json (x : Summary) :
    jsonFindings x.json =
      x.files.flatMap fun f => f.diagnostics.map (Finding.ofDiagnostic f.path) := by
  rw [jsonFindings, jsonFiles_json, List.flatMap_map]
  refine List.flatMap_congr ?_
  intro f _
  rw [List.map_map]
  exact List.map_congr_left fun d _ => finding_diagnosticJson f.path d

theorem jsonFindings_document :
    jsonFindings (Summary.ofReport s 0 r).json = r.findings s := by
  rw [jsonFindings_json, Summary.ofReport, List.flatMap_map]
  rfl

theorem jsonFailures_document (limit : Int) :
    jsonFailures (Summary.ofReport s limit r).json = r.failures s := by
  rw [failures]
  exact List.map_map.trans List.map_map

/-- The JSON report counts what it lists. -/
theorem count_document (limit : Int) :
    (Summary.ofReport s limit r).json.member "count" =
      .nat (jsonFindings (Summary.ofReport s limit r).json).length := by
  have hcount : (Summary.ofReport s limit r).json.member "count" =
      .nat (Summary.ofReport s limit r).count := rfl
  rw [hcount, jsonFindings_json]
  simp [Summary.ofReport, List.length_flatMap]

/-- A limit leaves the first diagnostics of each file. -/
theorem jsonFiles_limited {limit : Int} (h : 0 < limit) :
    jsonFiles (Summary.ofReport s limit r).json =
      (jsonFiles (Summary.ofReport s 0 r).json).map fun f => (f.1, f.2.take limit.toNat) := by
  rw [jsonFiles_json, jsonFiles_json, List.map_map, Summary.ofReport, Summary.ofReport,
    List.map_map, List.map_map]
  refine List.map_congr_left ?_
  intro f _
  have hcapped : Summary.capped limit f.diagnostics = f.diagnostics.take limit.toNat :=
    if_neg (Int.not_le.mpr h)
  simp only [Function.comp_apply, hcapped, List.map_take]
  rfl

/-! ## The SARIF log -/

/-- What the SARIF log shows of a diagnostic. -/
theorem finding_resultJson (x : SarifResult) :
    { path := sarifPath (SarifLog.resultJson x)
      code := (SarifLog.resultJson x).member "ruleId"
      line := ((sarifPlace (SarifLog.resultJson x)).member "region").member "startLine"
      col := (((sarifPlace (SarifLog.resultJson x)).member "region").member "startColumn").orZero
      message := sarifMessage (SarifLog.resultJson x) } =
    (⟨.string x.path, .string x.code.id, .nat x.line.toNat, .nat x.col.toNat, .string x.message⟩ :
      Finding) := by
  by_cases hcol : x.col = 0
  · rw [SarifLog.resultJson, if_pos hcol, hcol]
    rfl
  · rw [SarifLog.resultJson, if_neg hcol]
    rfl

theorem sarifResults_json (x : SarifLog) :
    sarifResults x.json = x.results.map SarifLog.resultJson := rfl

theorem sarifFindings_log :
    sarifFindings (SarifLog.ofReport o r).json = r.findings o.spelling := by
  rw [sarifFindings, sarifResults_json, List.map_map, findings, SarifLog.ofReport,
    List.map_flatMap]
  refine List.flatMap_congr ?_
  intro f _
  rw [List.map_map]
  exact List.map_congr_left fun d _ => finding_resultJson _

theorem sarifInvocation_json (x : SarifLog) : sarifInvocation x.json = x.invocationJson := rfl

/-- The notifications of a log, which are left out where there are none. -/
theorem notifications_json (x : SarifLog) :
    (x.invocationJson.member "toolExecutionNotifications").items =
      x.problems.map fun p =>
        .object [("level", .str "error"), ("message", SarifLog.message p.message),
          ("locations", SarifLog.location p.path [])] := by
  rw [SarifLog.invocationJson]
  cases x.problems with
  | nil => cases x.arguments <;> rfl
  | cons p ps => cases x.arguments <;> rfl

theorem sarifFailures_log :
    sarifFailures (SarifLog.ofReport o r).json = r.failures o.spelling := by
  rw [sarifFailures, sarifInvocation_json, notifications_json, failures, List.map_map,
    SarifLog.ofReport, List.map_map]
  rfl

theorem isSuccessful_log :
    (sarifInvocation (SarifLog.ofReport o r).json).member "executionSuccessful" =
      .bool r.problems.isEmpty := by
  have hsuccess : (SarifLog.ofReport o r).isSuccessful = r.problems.isEmpty := List.isEmpty_map
  rw [sarifInvocation_json, SarifLog.invocationJson, hsuccess]
  cases (SarifLog.ofReport o r).arguments <;> rfl

/-- A rule as the log shows it. -/
def ruleJson (c : Code × String) : JsonValue :=
  .object [("id", .string c.1.id), ("shortDescription", SarifLog.message (bytes c.2))]

theorem sarifRules_json (x : SarifLog) : sarifRules x.json = x.rules.map ruleJson := by
  rw [SarifLog.json]
  by_cases hversion : x.version = []
  · rw [if_pos hversion]
    rfl
  · rw [if_neg hversion]
    rfl

/-- Where all codes are known, every result points at the rule that it names. -/
theorem rule_of_mem_results (hknown : ∀ f ∈ r.files, ∀ d ∈ f.diagnostics, d.code.IsKnown)
    {v : JsonValue} (hv : v ∈ sarifResults (SarifLog.ofReport o r).json) :
    ∃ i rule, v.member "ruleIndex" = .nat i ∧
      (sarifRules (SarifLog.ofReport o r).json)[i]? = some rule ∧
      rule.member "id" = v.member "ruleId" := by
  rw [sarifResults_json, List.mem_map] at hv
  obtain ⟨x, hx, rfl⟩ := hv
  obtain ⟨f, hf, hmem⟩ := List.mem_flatMap.mp hx
  obtain ⟨d, hd, rfl⟩ := List.mem_map.mp hmem
  obtain ⟨rule, hrule, hcode⟩ := Option.map_eq_some_iff.mp (hknown f hf d hd).getElem?_ruleIndex
  refine ⟨SarifLog.ruleIndex d.code, ruleJson rule, rfl, ?_, ?_⟩
  · rw [sarifRules_json, List.getElem?_map]
    exact congrArg (Option.map ruleJson) hrule
  · show JsonValue.string rule.1.id = .string d.code.id
    rw [hcode]

end

end Report

/-! ## The documents of a run -/

namespace Scan.Run

open Report

/-- Without a cache, the two documents of a run list the same findings, as many as the result
counts, and the same failures; the log is successful when nothing failed, and its results point at
the rules that they name. With a limit the JSON report lists the first findings of each file and
counts them. -/
theorem documents_agree (r : Run) (hcache : r.options.cache = none) (s : Spelling)
    (o : SarifOptions) (hspelling : o.spelling = s) :
    let document (limit : Int) := (Summary.ofReport s limit r.result.report).json
    let log := (SarifLog.ofReport o r.result.report).json
    jsonFindings (document 0) = sarifFindings log ∧
    sarifFindings log = r.result.report.findings s ∧
    (sarifFindings log).length = r.result.count ∧
    (document 0).member "count" = .nat r.result.count ∧
    jsonFailures (document 0) = sarifFailures log ∧
    sarifFailures log = r.result.report.failures s ∧
    (sarifInvocation log).member "executionSuccessful" = .bool r.result.failures.isEmpty ∧
    (∀ v ∈ sarifResults log, ∃ i rule, v.member "ruleIndex" = .nat i ∧
      (sarifRules log)[i]? = some rule ∧ rule.member "id" = v.member "ruleId") ∧
    ∀ m, 0 < m →
      jsonFiles (document m) = (jsonFiles (document 0)).map (fun f => (f.1, f.2.take m.toNat)) ∧
      (document m).member "count" = .nat (jsonFindings (document m)).length := by
  intro document log
  subst hspelling
  have hlength : (r.result.report.findings o.spelling).length = r.result.count :=
    length_findings _ _
  have hdocument : jsonFindings (document 0) = r.result.report.findings o.spelling :=
    jsonFindings_document _ _
  have hlog : sarifFindings log = r.result.report.findings o.spelling := sarifFindings_log _ _
  have hfailures : sarifFailures log = r.result.report.failures o.spelling := sarifFailures_log _ _
  refine ⟨hdocument.trans hlog.symm, hlog, hlog ▸ hlength, ?_,
    (jsonFailures_document _ _ 0).trans hfailures.symm, hfailures, ?_, ?_, ?_⟩
  · rw [← hlength, ← hdocument]
    exact count_document _ _ 0
  · exact (isSuccessful_log _ _).trans (congrArg JsonValue.bool List.isEmpty_map)
  · intro v hv
    exact rule_of_mem_results _ _ (fun f hf => r.known_of_mem_files hcache hf) hv
  · intro m hm
    exact ⟨jsonFiles_limited _ _ hm, count_document _ _ m⟩

theorem documents_agree_named :
    let r := namedRun (bytes "a.cpp") (bytes "b.cpp")
    let document := (Summary.ofReport {} 0 r.result.report).json
    let log := (SarifLog.ofReport {} r.result.report).json
    jsonFindings document = sarifFindings log ∧ (sarifFindings log).length = 1 ∧
      document.member "count" = .nat 1 ∧ jsonFailures document = sarifFailures log ∧
      (sarifInvocation log).member "executionSuccessful" = .bool false := by
  intro r document log
  have hcount : r.result.count = 1 ∧ r.result.failures.isEmpty = false := by decide +kernel
  obtain ⟨hsame, _, hlength, hmember, hfailures, _, hsuccess, _⟩ :=
    documents_agree r rfl {} {} rfl
  rw [hcount.1] at hlength hmember
  rw [hcount.2] at hsuccess
  exact ⟨hsame, hlength, hmember, hfailures, hsuccess⟩

end Scan.Run

end LineReview
