import LineReview.Report.Human
import LineReview.Proofs.FileSystem.Spelling
import LineReview.Proofs.Review.Fingerprint
import LineReview.Proofs.Scan.Cancellation

/-!
# Lines of a report

The short report is a list of lines, one for each diagnostic and then one for
each file that could not be reviewed, with a line break behind each of them.
Severity, code, place and message of a diagnostic are free of line breaks.
Paths are not: a name may hold any byte but a slash and zero, and an error repeats the path.
So the report has as many line breaks as it has lines, and those of the paths besides
(`count_short`). Where no path has one, cutting the report at the line breaks
gives the lines back.
-/

namespace LineReview

/-! ## Lines of a text -/

namespace Text

/-- Lines with a line break behind each of them. -/
def ofLines (ls : List Text) : Text := ls.flatMap (· ++ [10])

theorem ofLines_cons (l : Text) (ls : List Text) : ofLines (l :: ls) = l ++ 10 :: ofLines ls := by
  rw [ofLines, List.flatMap_cons, List.append_assoc, List.singleton_append, ofLines]

theorem ofLines_append (a b : List Text) : ofLines (a ++ b) = ofLines a ++ ofLines b :=
  List.flatMap_append

theorem joinWith_break {ls : List Text} (hne : ls ≠ []) :
    joinWith [10] ls ++ [10] = ofLines ls := by
  induction ls with
  | nil => exact absurd rfl hne
  | cons l ls ih =>
      cases ls with
      | nil => exact (List.append_nil _).symm
      | cons k ks =>
          rw [joinWith_cons (List.cons_ne_nil k ks), List.append_assoc,
            ih (List.cons_ne_nil k ks), List.append_assoc, List.singleton_append, ofLines_cons l]

theorem count_ofLines (ls : List Text) :
    (ofLines ls).count 10 = ls.length + (ls.map (·.count 10)).sum := by
  induction ls with
  | nil => rfl
  | cons l ls ih =>
      rw [ofLines_cons, List.count_append, List.count_cons_self, ih, List.length_cons,
        List.map_cons, List.sum_cons]
      omega

theorem splitOn_ofLines {ls : List Text} (h : ∀ l ∈ ls, 10 ∉ l) :
    splitOn 10 (ofLines ls) = ls ++ [[]] := by
  induction ls with
  | nil => rfl
  | cons l ls ih =>
      have hrest := ih fun k hk => h k (List.mem_cons_of_mem _ hk)
      rw [ofLines_cons, splitOn_append, splitOn_of_notMem (h l List.mem_cons_self), hrest]
      rfl

theorem mem_of_mem_trimRight {b : UInt8} {t : Text} (h : b ∈ trimRight t) : b ∈ t := by
  rw [trimRight, ofRunes, List.mem_flatMap] at h
  obtain ⟨r, hr, hb⟩ := h
  have hmem := (List.dropWhile_sublist _).subset (List.mem_reverse.mp hr)
  rw [← ofRunes_runes t, ofRunes, List.mem_flatMap]
  exact ⟨r, List.mem_reverse.mp hmem, hb⟩

theorem mem_of_mem_trim {b : UInt8} {t : Text} (h : b ∈ trim t) : b ∈ t := by
  rw [← leading_append_trimLeft t]
  exact List.mem_append_right _ (mem_of_mem_trimRight h)

theorem break_notMem_decimal (n : Nat) : 10 ∉ decimal n := by
  intro h
  have hlow := (isDigit_of_mem_decimal h).1
  revert hlow
  decide

end Text

/-! ## What a line shows -/

namespace ListingEntry

/-- Neither a line feed nor a carriage return is left. -/
theorem of_mem_unbroken {b : UInt8} {m : Text} (h : b ∈ unbroken m) : b ≠ 10 ∧ b ≠ 13 := by
  fun_induction unbroken m with
  | case1 => cases h
  | case2 t ih =>
      rcases List.mem_cons.mp h with rfl | h
      · decide
      · exact ih h
  | case3 c t _ ih =>
      rcases List.mem_cons.mp h with rfl | h
      · split
        · decide
        · rename_i hc
          simpa [and_comm] using hc
      · exact ih h

theorem break_notMem_id (c : Code) : 10 ∉ c.id := by
  have hdigits := Text.break_notMem_decimal c.number.toNat
  have hfamily (s : String) (hs : 10 ∉ bytes s) : 10 ∉ bytes s ++ Text.decimal c.number.toNat :=
    fun h => (List.mem_append.mp h).elim hs hdigits
  unfold Code.id
  dsimp only
  split
  · exact hfamily "NAM" (by decide)
  split
  · exact hfamily "FMT" (by decide)
  split
  · exact hfamily "IO" (by decide)
  · decide

theorem break_notMem_label (s : Severity) : 10 ∉ bytes s.label := by
  unfold Severity.label
  split <;> decide

/-- The line of a diagnostic has the line breaks of its path. -/
theorem count_render (path : Text) (d : Diagnostic) :
    (render path (ofDiagnostic d)).count 10 = path.count 10 := by
  have hmessage : 10 ∉ cleanMessage d.message := fun h =>
    (of_mem_unbroken (Text.mem_of_mem_trim h)).1 rfl
  simp [render, ofDiagnostic, List.count_append, List.count_eq_zero_of_not_mem hmessage,
    List.count_eq_zero_of_not_mem (break_notMem_id _),
    List.count_eq_zero_of_not_mem (break_notMem_label _),
    List.count_eq_zero_of_not_mem (Text.break_notMem_decimal _)]

end ListingEntry

namespace Diagnostic

theorem count_withoutHere (p : Text) : (withoutHere p).count 10 = p.count 10 := by
  fun_induction withoutHere p with
  | case1 t ih => simp [ih]
  | case2 t _ => rfl

theorem length_entries (ds : List Diagnostic) : (entries ds).length = ds.length := by
  rw [entries, List.length_mergeSort, List.length_map]

theorem mem_entries {ds : List Diagnostic} {e : ListingEntry} :
    e ∈ entries ds ↔ ∃ d ∈ ds, ListingEntry.ofDiagnostic d = e := by
  rw [entries, List.mem_mergeSort, List.mem_map]

end Diagnostic

namespace Report

/-! ## The lines of the short report -/

/-- The lines about the diagnostics of a file. -/
def fileLines (s : Spelling) (f : FileResult) : List Text :=
  (Diagnostic.entries f.diagnostics).map
    (ListingEntry.render (Diagnostic.withoutHere (s.path f.path)))

/-- One line for each diagnostic. -/
def diagnosticLines (s : Spelling) (r : Report) : List Text := r.files.flatMap (fileLines s)

/-- The line about a file that could not be reviewed. -/
def problemLine (s : Spelling) (p : FileProblem) : Text :=
  bytes "error IO4001 " ++ s.path p.path ++ [32] ++ p.message

def problemLines (s : Spelling) (r : Report) : List Text := r.problems.map (problemLine s)

section

variable (s : Spelling) (r : Report)

theorem short_eq_ofLines :
    r.short s = Text.ofLines (r.diagnosticLines s ++ r.problemLines s) := by
  have hfile (f : FileResult) :
      (if f.diagnostics.isEmpty then []
        else Diagnostic.listing (s.path f.path) f.diagnostics ++ [10]) =
      Text.ofLines (fileLines s f) := by
    cases hds : f.diagnostics with
    | nil => simp [fileLines, hds, Diagnostic.entries, Text.ofLines]
    | cons d ds =>
        have hne : fileLines s f ≠ [] := by
          rw [← List.length_pos_iff, fileLines, List.length_map, Diagnostic.length_entries, hds]
          exact Nat.succ_pos _
        rw [fileLines, hds] at hne
        rw [fileLines, hds, ← Text.joinWith_break hne]
        rfl
  rw [short, Text.ofLines_append, diagnosticLines, problemLines]
  congr 1
  · rw [Text.ofLines, List.flatMap_assoc]
    exact List.flatMap_congr fun f _ => hfile f
  · rw [Text.ofLines, List.flatMap_map]
    rfl

theorem length_diagnosticLines : (r.diagnosticLines s).length = r.count := by
  simp [diagnosticLines, fileLines, count, List.length_flatMap, Diagnostic.length_entries]

theorem length_problemLines : (r.problemLines s).length = r.problems.length := List.length_map _

theorem count_of_mem_fileLines {f : FileResult} {l : Text} (h : l ∈ fileLines s f) :
    l.count 10 = (s.path f.path).count 10 := by
  obtain ⟨e, he, rfl⟩ := List.mem_map.mp h
  obtain ⟨d, _, rfl⟩ := Diagnostic.mem_entries.mp he
  exact (ListingEntry.count_render _ d).trans (Diagnostic.count_withoutHere _)

/-- The lines about a file repeat the line breaks of its path. -/
theorem count_fileLines (f : FileResult) :
    ((fileLines s f).map (·.count 10)).sum = f.diagnostics.length * (s.path f.path).count 10 := by
  have hall : (fileLines s f).map (·.count 10) =
      (fileLines s f).map fun _ => (s.path f.path).count 10 :=
    List.map_congr_left fun l hl => count_of_mem_fileLines s hl
  rw [hall, List.map_const', List.sum_replicate_nat, fileLines, List.length_map,
    Diagnostic.length_entries]

theorem count_problemLine (p : FileProblem) :
    (problemLine s p).count 10 = (s.path p.path).count 10 + p.message.count 10 := by
  have hword : (bytes "error IO4001 ").count 10 = 0 := by decide
  simp [problemLine, List.count_append, hword]

/-- The short report has a line break for each diagnostic and each file that could not be reviewed,
and the line breaks of the paths and errors that it shows. -/
theorem count_short :
    (r.short s).count 10 =
      r.count + r.problems.length +
        ((r.files.map fun f => f.diagnostics.length * (s.path f.path).count 10).sum +
          (r.problems.map fun p => (s.path p.path).count 10 + p.message.count 10).sum) := by
  have hdiagnostics : ((r.diagnosticLines s).map (·.count 10)).sum =
      (r.files.map fun f => f.diagnostics.length * (s.path f.path).count 10).sum := by
    rw [diagnosticLines]
    induction r.files with
    | nil => rfl
    | cons f fs ih =>
        rw [List.flatMap_cons, List.map_append, List.sum_append_nat, ih, count_fileLines,
          List.map_cons, List.sum_cons]
  have hproblems : (r.problemLines s).map (·.count 10) =
      r.problems.map fun p => (s.path p.path).count 10 + p.message.count 10 := by
    rw [problemLines, List.map_map]
    refine List.map_congr_left ?_
    intro p _
    rw [Function.comp_apply, count_problemLine]
  rw [short_eq_ofLines, Text.count_ofLines, List.length_append, List.map_append,
    List.sum_append_nat, length_diagnosticLines, length_problemLines, hdiagnostics, hproblems]

/-- Where neither paths nor errors have line breaks, the report is cut into its lines. -/
theorem splitOn_short (hfiles : ∀ f ∈ r.files, 10 ∉ s.path f.path)
    (hproblems : ∀ p ∈ r.problems, 10 ∉ s.path p.path ∧ 10 ∉ p.message) :
    Text.splitOn 10 (r.short s) = r.diagnosticLines s ++ r.problemLines s ++ [[]] := by
  rw [short_eq_ofLines]
  apply Text.splitOn_ofLines
  intro l hl
  rw [← List.count_eq_zero]
  rcases List.mem_append.mp hl with hl | hl
  · obtain ⟨f, hf, hmem⟩ := List.mem_flatMap.mp hl
    rw [count_of_mem_fileLines s hmem]
    exact List.count_eq_zero_of_not_mem (hfiles f hf)
  · obtain ⟨p, hp, rfl⟩ := List.mem_map.mp hl
    obtain ⟨hpath, hmessage⟩ := hproblems p hp
    rw [count_problemLine, List.count_eq_zero_of_not_mem hpath,
      List.count_eq_zero_of_not_mem hmessage]

end

end Report

/-! ## The text report -/

namespace Report

/-- A file is named on one line, and each of its diagnostics stands on another one. -/
theorem two_le_count_fileBlock {o : TextOptions} {f : FileResult} (h : f.diagnostics ≠ []) :
    2 ≤ (fileBlock o f).count 10 := by
  obtain ⟨d, ds, hds⟩ := List.exists_cons_of_ne_nil h
  rw [fileBlock, hds, List.flatMap_cons]
  simp only [List.count_append, List.count_singleton_self]
  omega

theorem head?_problem (isOn : Bool) (t : Text) :
    (paint isOn "31;1" "0;22" (bytes "error:") ++ t).head? ≠ some 97 := by
  have hfirst : (paint isOn "31;1" "0;22" (bytes "error:")).head? =
      some (if isOn then 27 else 101) := by
    cases isOn <;> decide
  rw [List.head?_append, hfirst, Option.some_or, Ne, Option.some.injEq]
  cases isOn <;> decide

/-- Only a report without diagnostics and problems says that all files passed. -/
theorem text_eq_passed_iff {o : TextOptions} {r : Report} (h : ∀ f ∈ r.files, f.diagnostics ≠ []) :
    r.text o = bytes "all files passed\n" ↔ r.isClean = true := by
  constructor
  · intro htext
    by_contra hclean
    rw [text, if_neg hclean] at htext
    cases hfiles : r.files with
    | cons f fs =>
        have hbreaks := congrArg (List.count 10) htext
        have hone : (bytes "all files passed\n").count 10 = 1 := by decide
        have htwo := two_le_count_fileBlock (o := o) (h f (hfiles ▸ List.mem_cons_self))
        rw [hfiles, List.flatMap_cons, List.count_append, List.count_append, hone] at hbreaks
        omega
    | nil =>
        rw [isClean, hfiles, List.isEmpty_nil, Bool.true_and, List.isEmpty_iff] at hclean
        obtain ⟨p, ps, hproblems⟩ := List.exists_cons_of_ne_nil hclean
        have hfirst := congrArg List.head? htext
        rw [hfiles, hproblems, List.flatMap_nil, List.nil_append, List.flatMap_cons] at hfirst
        simp only [List.append_assoc] at hfirst
        exact head?_problem _ _ hfirst
  · intro hclean
    rw [text, if_pos hclean]

end Report

/-! ## Spelled paths -/

theorem Report.Spelling.break_notMem_path {s : Report.Spelling} {p : Text} (hcwd : 10 ∉ s.cwd)
    (hp : 10 ∉ p) : 10 ∉ s.path p := fun h =>
  (Path.of_mem_format (by decide) (by decide) h).elim hcwd hp

/-! ## Errors and the files that they are about -/

/-- The error tells why the file at the path could not be reviewed. -/
def ReviewError.IsAbout (path : Text) : ReviewError → Prop
  | .unreadable e => ∃ fs : FileSystem, fs.read path = .error e
  | .crashed p _ => p = path

theorem FileSystem.read_error {fs : FileSystem} {p : Text} {e : AccessError}
    (h : fs.read p = .error e) : ∃ reason, e = ⟨"open", p, reason⟩ ∨ e = ⟨"read", p, reason⟩ := by
  unfold read at h
  split at h
  · cases h
  · cases h
    exact ⟨_, .inr rfl⟩
  · cases h
    exact ⟨_, .inl rfl⟩
  · cases h
    exact ⟨_, .inl rfl⟩

theorem FileError.break_notMem_message (r : FileError) : 10 ∉ bytes r.message := by
  cases r <;> decide

/-- An error repeats the path; beyond that only a review that broke off brings a text of its own. -/
theorem ReviewError.IsAbout.break_notMem_message {e : ReviewError} {path : Text}
    (h : e.IsAbout path) (hpath : 10 ∉ path) (hvalue : ∀ p v, e = .crashed p v → 10 ∉ v) :
    10 ∉ e.message := by
  cases e with
  | unreadable e =>
      obtain ⟨fs, hread⟩ := h
      obtain ⟨reason, hreason⟩ := FileSystem.read_error hread
      have hmessage := FileError.break_notMem_message reason
      have hopen : 10 ∉ bytes "open" := by decide
      have hverb : 10 ∉ bytes "read" := by decide
      have hcolon : 10 ∉ bytes ": " := by decide
      have hfront : 10 ∉ bytes "file not found or unreadable: " := by decide
      rcases hreason with rfl | rfl <;>
        simp [message, AccessError.message, hmessage, hopen, hverb, hcolon, hfront, hpath]
  | crashed p value =>
      have hp : p = path := h
      have hv := hvalue p value rfl
      have hcolon : 10 ∉ bytes ": " := by decide
      have hfront : 10 ∉ bytes "internal error while reviewing " := by decide
      simp [message, hp, hv, hcolon, hfront, hpath]

namespace Scan

/-- A step fails only with an error about the file of the worker. -/
theorem Worker.failure_step {o : ScanOptions} {s : Shared} {w : Worker} {e : ReviewError}
    (h : (w.step o s).2.failure = some e) : w.failure = some e ∨ e.IsAbout w.path := by
  unfold step at h
  cases hstage : w.stage with
  | begun =>
      simp only [hstage, Reviewer.load] at h
      cases hread : s.files.read w.path with
      | ok content =>
          rw [hread] at h
          exact .inl h
      | error cause =>
          rw [hread] at h
          cases h
          exact .inr ⟨s.files, hread⟩
  | kept f =>
      simp only [hstage] at h
      rcases (lookUp_cases o s w f).2 with hmissed | ⟨c, key, entry, _, _, hhit⟩
      · rw [hmissed] at h
        exact .inl h
      · rw [hhit] at h
        exact .inl h
  | missed f =>
      simp only [hstage, Reviewer.source] at h
      cases hreview :
          Review.outcome? o.reviewer.widths o.reviewer.options o.reviewer.classify f with
      | none =>
          rw [hreview] at h
          exact .inl h
      | some x =>
          rw [hreview] at h
          cases x with
          | ok ds => exact .inl h
          | error value =>
              cases h
              exact .inr rfl
  | reporting f rest =>
      simp only [hstage] at h
      cases rest <;> exact .inl h
  | storing f =>
      simp only [hstage] at h
      rw [(store_cases o s w f).1] at h
      exact .inl h
  | _ =>
      simp only [hstage] at h
      exact .inl h

namespace Run

/-- All along a run, what a worker fails with is about its file. -/
theorem isAbout_of_failure (r : Run) :
    ∀ ms, ms <+: r.moves → ∀ w ∈ (r.after ms).workers, ∀ e, w.failure = some e →
      e.IsAbout w.path := by
  refine r.along_workers (P := fun w => ∀ e, w.failure = some e → e.IsAbout w.path) ?_ ?_
  · intro ms path _ _ e he
    cases he
  · intro ms _ w _ hw e he
    rw [Worker.step_path]
    rcases Worker.failure_step he with hbefore | habout
    · exact hw e hbefore
    · exact habout

theorem path_of_mem_failures {r : Run} {f : Failure} (h : f ∈ r.result.failures) :
    f.path ∈ r.paths ∧ f.reason.IsAbout f.path := by
  obtain ⟨w, hw, hfailure⟩ := List.mem_filterMap.mp h
  obtain ⟨e, he, rfl⟩ := Option.map_eq_some_iff.mp hfailure
  exact ⟨r.isPrefix_paths.subset (List.mem_map_of_mem hw),
    r.isAbout_of_failure r.moves List.prefix_rfl w hw e he⟩

theorem path_of_mem_files {r : Run} {f : FileResult} (h : f ∈ r.result.files) :
    f.path ∈ r.paths := by
  obtain ⟨w, hw, hlisted⟩ := List.mem_filterMap.mp h
  split at hlisted
  · cases hlisted
    exact r.isPrefix_paths.subset (List.mem_map_of_mem hw)
  · cases hlisted

/-- The short report of a run has a line break for each diagnostic and each failure, and those of
the paths and errors that it shows. Where neither the paths nor the working directory have one, nor
the value that a review broke off with, the lines of the report are one for each diagnostic and then
one for each failure. -/
theorem short_lines (r : Run) (s : Report.Spelling) :
    (r.result.report.short s).count 10 =
      r.result.count + r.result.failures.length +
        ((r.result.files.map fun f => f.diagnostics.length * (s.path f.path).count 10).sum +
          (r.result.failures.map fun f =>
            (s.path f.path).count 10 + f.reason.message.count 10).sum) ∧
    ((∀ p ∈ r.paths, 10 ∉ p) → 10 ∉ s.cwd →
      (∀ f ∈ r.result.failures, ∀ p v, f.reason = .crashed p v → 10 ∉ v) →
      Text.splitOn 10 (r.result.report.short s) =
        r.result.report.diagnosticLines s ++ r.result.report.problemLines s ++ [[]] ∧
      (r.result.report.diagnosticLines s).length = r.result.count ∧
      (r.result.report.problemLines s).length = r.result.failures.length) := by
  have hfailures : r.result.report.problems.length = r.result.failures.length := List.length_map _
  constructor
  · rw [Report.count_short, hfailures, ScanResult.report, List.map_map]
    rfl
  · intro hpaths hcwd hvalues
    refine ⟨Report.splitOn_short s _ ?_ ?_, Report.length_diagnosticLines s _,
      (Report.length_problemLines s _).trans hfailures⟩
    · intro f hf
      exact Report.Spelling.break_notMem_path hcwd (hpaths f.path (path_of_mem_files hf))
    · intro p hp
      obtain ⟨f, hf, rfl⟩ := List.mem_map.mp hp
      obtain ⟨hmem, habout⟩ := path_of_mem_failures hf
      have hpath := hpaths f.path hmem
      exact ⟨Report.Spelling.break_notMem_path hcwd hpath,
        habout.break_notMem_message hpath (hvalues f hf)⟩

/-- A run over a file with a badly named class and a file that is missing. -/
def namedRun (name missing : Text) : Run :=
  { options := { jobs := 2 }
    shared :=
      { files :=
          { root := .folder (.cons name (.file (bytes "class foo {};\n")) .nil), here := [] } }
    paths := [name, missing]
    moves := List.replicate 6 .main ++ (List.replicate 15 [.work 1, .work 0]).flatten ++
      List.replicate 4 .main }

theorem short_lines_named :
    let r := namedRun (bytes "a.cpp") (bytes "b.cpp")
    Text.splitOn 10 (r.result.report.short {}) =
      r.result.report.diagnosticLines {} ++ r.result.report.problemLines {} ++ [[]] ∧
    (r.result.report.diagnosticLines {}).length = 1 ∧
    (r.result.report.problemLines {}).length = 1 := by
  intro r
  have hpaths : ∀ p ∈ r.paths, 10 ∉ p := by decide +kernel
  have hreasons : ∀ f ∈ r.result.failures, f.reason =
      .unreadable ⟨"open", bytes "b.cpp", .notFound⟩ := by
    decide +kernel
  have hcount : r.result.count = 1 ∧ r.result.failures.length = 1 := by decide +kernel
  obtain ⟨hlines, hdiagnostics, hproblems⟩ := (short_lines r {}).2 hpaths (by decide)
    (fun f hf p v hcrash => by cases (hreasons f hf).symm.trans hcrash)
  exact ⟨hlines, hdiagnostics.trans hcount.1, hproblems.trans hcount.2⟩

/-- A name with a line break spreads one diagnostic over two lines. -/
theorem short_breaks_name :
    let r := namedRun (bytes "a\nb.cpp") (bytes "c.cpp")
    r.IsUncancelled ∧ r.IsOver ∧ r.result.count + r.result.failures.length = 2 ∧
      (r.result.report.short {}).count 10 = 3 := by
  intro r
  have hover : r.IsOver := by
    unfold IsOver
    decide +kernel
  exact ⟨⟨rfl, fun e => by cases e <;> decide⟩, hover, by decide +kernel, by decide +kernel⟩

end Run

end Scan

end LineReview
