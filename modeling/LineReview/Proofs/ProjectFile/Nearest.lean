import LineReview.ProjectFile
import LineReview.Proofs.FileSystem.Relative
import Mathlib.Data.List.Induction
import Mathlib.Logic.Function.Iterate

/-!
# The nearest project file

A search for a project file goes up from a folder. The folders on its way are the
folder and those above it, one name fewer at each step (`iterate_parent`), so it comes
to the root and ends there. What it answers is decided by the deepest folder whose
candidate is not absent: a candidate that is there is found, and one for which this
cannot be told is an error (`findFrom_cases`). No assumption is made about which
candidates are there, so errors and missing files may be mixed at any depth.
-/

namespace LineReview

namespace Path

/-- The folder above has one name fewer; the root is its own parent. -/
theorem parent_ofNames {ns : List Text} (hns : ∀ n ∈ ns, IsName n) :
    parent (ofNames true ns) = ofNames true ns.dropLast := by
  rcases List.eq_nil_or_concat ns with rfl | ⟨front, last, rfl⟩
  · rfl
  · rw [List.concat_eq_append] at hns ⊢
    have hlast := (hns last (by simp)).no_slash
    rw [List.dropLast_concat]
    by_cases hfront : front = []
    · subst hfront
      exact parent_append [] hlast
    · have hnormal : Normal true front.reverse :=
        normal_of_isName (fun n hn => hns n (List.mem_append_left _ hn)) true
      rw [ofNames_append_name true hfront, parent_append _ hlast, if_neg (ofNames_ne_nil hnormal),
        clean_ofNames hnormal]

/-- After `k` steps up, `k` names are gone, or all. -/
theorem iterate_parent {ns : List Text} (hns : ∀ n ∈ ns, IsName n) (k : Nat) :
    parent^[k] (ofNames true ns) = ofNames true (ns.take (ns.length - k)) := by
  induction k with
  | zero => simp
  | succ k ih =>
      have htake : ∀ n ∈ ns.take (ns.length - k), IsName n :=
        fun n hn => hns n (List.mem_of_mem_take hn)
      rw [Function.iterate_succ_apply', ih, parent_ofNames htake, List.dropLast_eq_take,
        List.take_take, List.length_take]
      congr 2
      omega

end Path

namespace ProjectFile

/-- Where a search looks in the folder with the given names. -/
def candidate (ms : List Text) : Text := Path.join (Path.ofNames true ms) fileName

section Search

variable (stat : Text → Except AccessError Node)

/-- Something stands at the path. -/
def IsThere (path : Text) : Prop := ∃ x, stat path = .ok x

/-- Nothing stands at the path. -/
def IsAbsent (path : Text) : Prop := ∃ e, stat path = .error e ∧ e.reason = .notFound

/-- It cannot be told whether anything stands at the path. -/
def IsUnclear (path : Text) : Prop := ∃ e, stat path = .error e ∧ e.reason ≠ .notFound

/-- A folder at or above `ns` whose candidate is there, with nothing unclear below it. -/
structure IsInSight (ns ms : List Text) : Prop where
  isAbove : ms <+: ns
  isThere : IsThere stat (candidate ms)
  isClear : ∀ ks, ks <+: ns → ms.length < ks.length → ¬ IsUnclear stat (candidate ks)

/-- The deepest folder at or above `ns` whose candidate is not absent. -/
structure IsDeepest (ns ms : List Text) : Prop where
  isAbove : ms <+: ns
  isPresent : ¬ IsAbsent stat (candidate ms)
  isAbsent : ∀ ks, ks <+: ns → ms.length < ks.length → IsAbsent stat (candidate ks)

/-- The answer to a search from the folder with the names `ns`. -/
structure IsAnswer (ns : List Text) (answer : Except AccessError (Option Text)) : Prop where
  found_iff : (∃ path, answer = .ok (some path)) ↔ ∃ ms, IsInSight stat ns ms
  deepest : ∀ path, answer = .ok (some path) →
    ∃ ms, path = candidate ms ∧ IsInSight stat ns ms ∧
      ∀ ks, IsInSight stat ns ks → ks.length ≤ ms.length
  failed_iff : ∀ e, answer = .error e ↔
    ∃ ms, IsDeepest stat ns ms ∧ IsUnclear stat (candidate ms) ∧ stat (candidate ms) = .error e
  none_iff : answer = .ok none ↔ ∀ ms, ms <+: ns → IsAbsent stat (candidate ms)

end Search

section Search

variable {stat : Text → Except AccessError Node}

theorem IsAbsent.not_isThere {path : Text} (h : IsAbsent stat path) : ¬ IsThere stat path := by
  rintro ⟨x, hx⟩
  obtain ⟨e, he, _⟩ := h
  rw [hx] at he
  cases he

theorem IsAbsent.not_isUnclear {path : Text} (h : IsAbsent stat path) : ¬ IsUnclear stat path := by
  rintro ⟨e, he, hreason⟩
  obtain ⟨e', he', hnone⟩ := h
  rw [he] at he'
  cases he'
  exact hreason hnone

theorem IsThere.not_isUnclear {path : Text} (h : IsThere stat path) : ¬ IsUnclear stat path := by
  rintro ⟨e, he, _⟩
  obtain ⟨x, hx⟩ := h
  rw [hx] at he
  cases he

theorem there_or_unclear {path : Text} (h : ¬ IsAbsent stat path) :
    IsThere stat path ∨ IsUnclear stat path := by
  cases hstat : stat path with
  | ok x => exact .inl ⟨x, hstat⟩
  | error e => exact .inr ⟨e, hstat, fun hreason => h ⟨e, hstat, hreason⟩⟩

/-! ## One look -/

/-- A search ends where the candidate is not absent. -/
theorem findFrom_of_present {dir : Text} (h : ¬ IsAbsent stat (Path.join dir fileName)) :
    (IsThere stat (Path.join dir fileName) ∧
      findFrom stat dir = .ok (some (Path.join dir fileName))) ∨
    ∃ e, stat (Path.join dir fileName) = .error e ∧ findFrom stat dir = .error e := by
  rw [findFrom]
  cases hstat : stat (Path.join dir fileName) with
  | ok x => exact .inl ⟨⟨x, hstat⟩, rfl⟩
  | error e =>
      have hreason : e.reason ≠ .notFound := fun hnone => h ⟨e, hstat, hnone⟩
      exact .inr ⟨e, rfl, by simp [hreason]⟩

/-- Where the candidate is absent, a search goes on with the folder above. -/
theorem findFrom_of_absent {dir : Text} (h : IsAbsent stat (Path.join dir fileName)) :
    findFrom stat dir =
      if Path.parent dir = dir then .ok none else findFrom stat (Path.parent dir) := by
  obtain ⟨e, he, hreason⟩ := h
  rw [findFrom]
  simp [he, hreason]

/-! ## The whole search -/

theorem isDeepest_self {ns : List Text} (h : ¬ IsAbsent stat (candidate ns)) :
    IsDeepest stat ns ns := by
  refine ⟨List.prefix_rfl, h, ?_⟩
  intro ks hks hlt
  have hle := hks.length_le
  omega

theorem IsDeepest.concat {ns ms : List Text} {n : Text} (h : IsDeepest stat ns ms)
    (habsent : IsAbsent stat (candidate (ns ++ [n]))) : IsDeepest stat (ns ++ [n]) ms := by
  refine ⟨h.isAbove.trans (List.prefix_append ns [n]), h.isPresent, ?_⟩
  intro ks hks hlt
  rcases List.prefix_concat_iff.mp hks with rfl | hks
  · exact habsent
  · exact h.isAbsent ks hks hlt

/-- What a search answers: it finds the candidate of the deepest folder where there is one, or fails
there, or all candidates are absent. -/
theorem findFrom_cases {ns : List Text} (hns : ∀ n ∈ ns, Path.IsName n) :
    ((∀ ms, ms <+: ns → IsAbsent stat (candidate ms)) ∧
      findFrom stat (Path.ofNames true ns) = .ok none) ∨
    ∃ ms, IsDeepest stat ns ms ∧
      ((IsThere stat (candidate ms) ∧
          findFrom stat (Path.ofNames true ns) = .ok (some (candidate ms))) ∨
        ∃ e, stat (candidate ms) = .error e ∧
          findFrom stat (Path.ofNames true ns) = .error e) := by
  induction ns using List.reverseRecOn with
  | nil =>
      by_cases habsent : IsAbsent stat (candidate [])
      · refine .inl ⟨?_, ?_⟩
        · rintro ms hms
          rw [List.prefix_nil.mp hms]
          exact habsent
        · rw [findFrom_of_absent habsent, Path.parent_ofNames hns, List.dropLast_nil, if_pos rfl]
      · exact .inr ⟨[], isDeepest_self habsent, findFrom_of_present habsent⟩
  | append_singleton ns n ih =>
      by_cases habsent : IsAbsent stat (candidate (ns ++ [n]))
      · have hfront : ∀ m ∈ ns, Path.IsName m := fun m hm => hns m (List.mem_append_left _ hm)
        have hup : findFrom stat (Path.ofNames true (ns ++ [n])) =
            findFrom stat (Path.ofNames true ns) := by
          rw [findFrom_of_absent habsent, Path.parent_ofNames hns, List.dropLast_concat, if_neg]
          intro hsame
          have hnames := congrArg Path.names hsame
          rw [Path.names_ofNames (Path.normal_of_isName hfront true),
            Path.names_ofNames (Path.normal_of_isName hns true)] at hnames
          simp at hnames
        rw [hup]
        rcases ih hfront with ⟨hall, hnone⟩ | ⟨ms, hdeepest, hanswer⟩
        · refine .inl ⟨?_, hnone⟩
          intro ms hms
          rcases List.prefix_concat_iff.mp hms with rfl | hms
          · exact habsent
          · exact hall ms hms
        · exact .inr ⟨ms, hdeepest.concat habsent, hanswer⟩
      · exact .inr ⟨ns ++ [n], isDeepest_self habsent, findFrom_of_present habsent⟩

/-- A candidate in sight is found only where the deepest one that is not absent is there. -/
theorem IsDeepest.of_isInSight {ns ms ks : List Text} (h : IsDeepest stat ns ms)
    (hks : IsInSight stat ns ks) : IsThere stat (candidate ms) ∧ ks.length ≤ ms.length := by
  have hle : ks.length ≤ ms.length := by
    by_contra hlt
    exact (h.isAbsent ks hks.isAbove (by omega)).not_isThere hks.isThere
  refine ⟨?_, hle⟩
  rcases Nat.lt_or_eq_of_le hle with hlt | heq
  · rcases there_or_unclear h.isPresent with hthere | hunclear
    · exact hthere
    · exact absurd hunclear (hks.isClear ms h.isAbove hlt)
  · have hsame : ks = ms :=
      (List.prefix_of_prefix_length_le hks.isAbove h.isAbove hle).eq_of_length heq
    exact hsame ▸ hks.isThere

theorem IsDeepest.isInSight {ns ms : List Text} (h : IsDeepest stat ns ms)
    (hthere : IsThere stat (candidate ms)) : IsInSight stat ns ms :=
  ⟨h.isAbove, hthere, fun ks hks hlt => (h.isAbsent ks hks hlt).not_isUnclear⟩

theorem IsDeepest.unique {ns ms ks : List Text} (h : IsDeepest stat ns ms)
    (hks : IsDeepest stat ns ks) : ms = ks := by
  rcases Nat.lt_trichotomy ms.length ks.length with hlt | heq | hlt
  · exact absurd (h.isAbsent ks hks.isAbove hlt) hks.isPresent
  · have hprefix := List.prefix_of_prefix_length_le h.isAbove hks.isAbove (Nat.le_of_eq heq)
    exact hprefix.eq_of_length heq
  · exact absurd (hks.isAbsent ms h.isAbove hlt) h.isPresent

/-! ## The three answers -/

theorem isAnswer_none {ns : List Text} (hall : ∀ ms, ms <+: ns → IsAbsent stat (candidate ms)) :
    IsAnswer stat ns (.ok none) := by
  constructor
  · constructor
    · rintro ⟨path, ⟨⟩⟩
    · rintro ⟨ms, hms⟩
      exact absurd hms.isThere (hall ms hms.isAbove).not_isThere
  · rintro path ⟨⟩
  · intro e
    constructor
    · rintro ⟨⟩
    · rintro ⟨ms, hms, -, -⟩
      exact absurd (hall ms hms.isAbove) hms.isPresent
  · exact ⟨fun _ => hall, fun _ => rfl⟩

theorem IsDeepest.isAnswer_found {ns ms : List Text} (h : IsDeepest stat ns ms)
    (hthere : IsThere stat (candidate ms)) : IsAnswer stat ns (.ok (some (candidate ms))) := by
  constructor
  · exact ⟨fun _ => ⟨ms, h.isInSight hthere⟩, fun _ => ⟨candidate ms, rfl⟩⟩
  · rintro path ⟨⟩
    exact ⟨ms, rfl, h.isInSight hthere, fun ks hks => (h.of_isInSight hks).2⟩
  · intro e
    constructor
    · rintro ⟨⟩
    · rintro ⟨ks, hks, hunclear, -⟩
      rw [← h.unique hks] at hunclear
      exact absurd hunclear hthere.not_isUnclear
  · constructor
    · rintro ⟨⟩
    · intro hall
      exact absurd (hall ms h.isAbove) h.isPresent

theorem IsDeepest.isAnswer_failed {ns ms : List Text} (h : IsDeepest stat ns ms) {e : AccessError}
    (he : stat (candidate ms) = .error e) : IsAnswer stat ns (.error e) := by
  have hnot : ¬ IsThere stat (candidate ms) := by
    rintro ⟨x, hx⟩
    rw [hx] at he
    cases he
  have hunclear := (there_or_unclear h.isPresent).resolve_left hnot
  constructor
  · constructor
    · rintro ⟨path, ⟨⟩⟩
    · rintro ⟨ks, hks⟩
      exact absurd (h.of_isInSight hks).1 hnot
  · rintro path ⟨⟩
  · intro e'
    constructor
    · rintro ⟨⟩
      exact ⟨ms, h, hunclear, he⟩
    · rintro ⟨ks, hks, -, he'⟩
      rw [← h.unique hks, he] at he'
      cases he'
      rfl
  · constructor
    · rintro ⟨⟩
    · intro hall
      exact absurd (hall ms h.isAbove) h.isPresent

end Search

/-- The search for a project file, from any folder and whatever is told about the candidates. It
climbs to the root, one name at a time. It finds a file exactly when one is in sight, and then the
deepest one; it fails exactly when the deepest candidate that is not absent is unclear, for the
reason told there; and it finds nothing exactly when all candidates are absent. -/
theorem find_nearest (stat : Text → Except AccessError Node) {cwd : Text}
    (hcwd : Path.isAbsolute cwd = true) (start : Text) :
    let dir := Path.absolute cwd start
    let ns := Path.names dir
    (∀ k, Path.parent^[k] dir = Path.ofNames true (ns.take (ns.length - k))) ∧
    IsAnswer stat ns (findFrom stat dir) ∧
    ∀ fs : FileSystem, fs.stat = stat → fs.workingDirectory = cwd →
      find fs start = findFrom stat dir := by
  intro dir ns
  have hdir : Path.isAbsolute dir = true := Path.isAbsolute_absolute hcwd start
  have hns : ∀ n ∈ ns, Path.IsName n := fun n hn => Path.isName_of_mem_names hdir hn
  have hspelled : dir = Path.ofNames true ns := by
    rw [← hdir]
    exact (Path.clean_absolute cwd start).symm
  refine ⟨?_, ?_, ?_⟩
  · intro k
    rw [hspelled]
    exact Path.iterate_parent hns k
  · rw [hspelled]
    rcases findFrom_cases hns with ⟨hall, hnone⟩ | ⟨ms, hms, ⟨hthere, hfound⟩ | ⟨e, he, hfailed⟩⟩
    · rw [hnone]
      exact isAnswer_none hall
    · rw [hfound]
      exact hms.isAnswer_found hthere
    · rw [hfailed]
      exact hms.isAnswer_failed he
  · rintro fs rfl rfl
    rfl

/-- In `/a` stands a project file, in the folder `b` below it none, and in the folder `c` below
that a link to itself. -/
def nestedFiles : FileSystem :=
  { root := .folder (.cons (bytes "a") (.folder
      (.cons fileName (.file [])
        (.cons (bytes "b") (.folder
          (.cons (bytes "c") (.folder (.cons fileName (.link fileName) .nil)) .nil)) .nil))) .nil)
    here := [bytes "a"] }

/-- From `b` the file in `/a` is found; from `c` the search fails, though the same file stands
above. -/
theorem find_nearest_nested :
    Path.isAbsolute nestedFiles.workingDirectory = true ∧
    find nestedFiles (bytes "b/c/..") = .ok (some (bytes "/a/.codereview.toml")) ∧
    (∃ ms, bytes "/a/.codereview.toml" = candidate ms ∧
      IsInSight nestedFiles.stat [bytes "a", bytes "b"] ms) ∧
    find nestedFiles (bytes "b//c") =
      .error ⟨"stat", bytes "/a/b/c/.codereview.toml", .tooManyLinks⟩ ∧
    ∃ ms, IsDeepest nestedFiles.stat [bytes "a", bytes "b", bytes "c"] ms ∧
      IsUnclear nestedFiles.stat (candidate ms) := by
  have hcwd : Path.isAbsolute nestedFiles.workingDirectory = true := rfl
  have hfound : find nestedFiles (bytes "b/c/..") = .ok (some (bytes "/a/.codereview.toml")) := by
    decide +kernel
  have hfailed : find nestedFiles (bytes "b//c") =
      .error ⟨"stat", bytes "/a/b/c/.codereview.toml", .tooManyLinks⟩ := by
    decide +kernel
  obtain ⟨ms, hms, hsight, -⟩ :=
    (find_nearest nestedFiles.stat hcwd (bytes "b/c/..")).2.1.deepest _ hfound
  obtain ⟨ks, hks, hunclear, -⟩ :=
    ((find_nearest nestedFiles.stat hcwd (bytes "b//c")).2.1.failed_iff _).mp hfailed
  exact ⟨hcwd, hfound, ⟨ms, hms, hsight⟩, hfailed, ks, hks, hunclear⟩

end ProjectFile

end LineReview
