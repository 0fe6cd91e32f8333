import LineReview.Source.FileSet
import Mathlib.Data.List.Induction
import Mathlib.Tactic.ByContra

/-!
# The history of a file set

A file set grows by the offers that it takes and by nothing else. Its files stand in
the order in which they were taken, each under the identifier that was answered, and
the index leads from a path to the last of its files (`IsCoherent`). One offer keeps
this (`IsCoherent.receive`), and so does a list of offers (`isCoherent_after`).
Refused offers leave no trace, so the identifiers count the offers that were taken
(`history_kept`).
-/

namespace LineReview.FileSet

/-! ## One offer -/

/-- What an offer holds: a path, a content as it is stored, and flags. -/
inductive Offer.Holds : Offer → Text → Text → FileFlags → Prop where
  | plain (path content : Text) (flags : FileFlags) :
      Holds (.plain path content flags) path content flags
  | virtual (name content : Text) : Holds (.virtual name content) name content FileFlags.isVirtual
  | disk {fs : FileSystem} {path raw : Text} (h : fs.read path = .ok raw) :
      Holds (.disk fs path) path (SourceFile.normalise raw).1 (SourceFile.normalise raw).2

/-- Why an offer is refused by a set of the given size. -/
inductive Offer.Fails : Offer → Nat → Refusal → Prop where
  | unreadable {fs : FileSystem} {path : Text} {e : AccessError} {n : Nat}
      (h : fs.read path = .error e) : Fails (.disk fs path) n (.unreadable e)
  | full {x : Offer} {path content : Text} {flags : FileFlags} {n : Nat}
      (h : x.Holds path content flags) (hfull : capacity ≤ n) : Fails x n .full

/-- An offer adds the file that it holds, or it changes nothing. -/
theorem receive_cases (s : FileSet) (x : Offer) :
    (∃ path content flags, x.Holds path content flags ∧ s.size < capacity ∧
      s.receive x = (.ok s.nextId, s.add path content flags)) ∨
    ∃ e, x.Fails s.size e ∧ s.receive x = (.error e, s) := by
  have htaken {path content : Text} {flags : FileFlags} (hholds : x.Holds path content flags)
      (heq : s.receive x = if s.size < capacity then (.ok s.nextId, s.add path content flags)
        else (.error .full, s)) :
      (∃ path content flags, x.Holds path content flags ∧ s.size < capacity ∧
        s.receive x = (.ok s.nextId, s.add path content flags)) ∨
      ∃ e, x.Fails s.size e ∧ s.receive x = (.error e, s) := by
    by_cases hroom : s.size < capacity
    · exact .inl ⟨path, content, flags, hholds, hroom, heq.trans (if_pos hroom)⟩
    · exact .inr ⟨.full, .full hholds (Nat.not_lt.mp hroom), heq.trans (if_neg hroom)⟩
  cases x with
  | plain path content flags => exact htaken (.plain path content flags) rfl
  | virtual name content => exact htaken (.virtual name content) rfl
  | disk fs path =>
      cases hread : fs.read path with
      | ok raw =>
          refine htaken (.disk hread) ?_
          rw [receive, load, hread]
          rfl
      | error e =>
          refine .inr ⟨.unreadable e, .unreadable hread, ?_⟩
          rw [receive, load, hread]
          rfl

/-! ## The index -/

theorem lookup_cons (p : Text) (e : Text × UInt32) (l : List (Text × UInt32)) :
    (e :: l).lookup p = if p = e.1 then some e.2 else l.lookup p := by
  rw [List.lookup_cons]
  by_cases hp : p = e.1
  · simp [hp]
  · simp [hp, beq_eq_false_iff_ne.mpr hp]

theorem lookup_bind (path : Text) (id : UInt32) (p : Text) (l : List (Text × UInt32)) :
    (bind path id l).lookup p = if p = path then some id else l.lookup p := by
  induction l with
  | nil => rw [bind, lookup_cons]
  | cons e l ih =>
      rw [bind]
      by_cases he : e.1 = path
      · rw [if_pos he, lookup_cons, lookup_cons, he]
        by_cases hp : p = path
        · rw [if_pos hp, if_pos hp]
        · rw [if_neg hp, if_neg hp, if_neg hp]
      · rw [if_neg he, lookup_cons, lookup_cons, ih]
        by_cases hp : p = path
        · have hne : p ≠ e.1 := fun h => he (h ▸ hp)
          rw [if_neg hne, if_pos hp, if_pos hp]
        · simp only [if_neg hp]

/-- The index leads from each path to the last of its files, and no identifier is too large. -/
structure IsCoherent (s : FileSet) : Prop where
  size_le : s.size ≤ capacity
  found : ∀ {p : Text} {i : UInt32}, s.latest.lookup p = some i →
    (∃ f, s.files[i.toNat]? = some f ∧ f.path = p) ∧
    ∀ (j : Nat) f, s.files[j]? = some f → f.path = p → j ≤ i.toNat
  absent : ∀ {p : Text}, s.latest.lookup p = none →
    ∀ (j : Nat) f, s.files[j]? = some f → f.path ≠ p

theorem isCoherent_empty (base : Text) : IsCoherent { base } :=
  ⟨Nat.zero_le _, nofun, fun _ j f hf => by cases hf⟩

theorem toNat_nextId {s : FileSet} (hroom : s.size < capacity) : s.nextId.toNat = s.size :=
  UInt32.toNat_ofNat_of_lt' hroom

/-- The file that a set stores next. -/
def newFile (s : FileSet) (path content : Text) (flags : FileFlags) : SourceFile :=
  { SourceFile.make path content flags with id := s.nextId }

theorem getElem?_add (s : FileSet) (path content : Text) (flags : FileFlags) (j : Nat) :
    (s.add path content flags).files[j]? =
      if j = s.size then some (s.newFile path content flags) else s.files[j]? :=
  Array.getElem?_push

theorem lt_size {s : FileSet} {j : Nat} {f : SourceFile} (h : s.files[j]? = some f) :
    j < s.size :=
  (Array.getElem?_eq_some_iff.mp h).1

theorem getElem?_add_of_some {s : FileSet} {j : Nat} {f : SourceFile} (h : s.files[j]? = some f)
    (path content : Text) (flags : FileFlags) :
    (s.add path content flags).files[j]? = some f := by
  rw [getElem?_add, if_neg (Nat.ne_of_lt (lt_size h)), h]

/-- A file after an addition was there before, or it is the new one. -/
theorem of_getElem?_add {s : FileSet} {path content : Text} {flags : FileFlags} {j : Nat}
    {f : SourceFile} (h : (s.add path content flags).files[j]? = some f) :
    s.files[j]? = some f ∨ f.path = Path.clean path := by
  rw [getElem?_add] at h
  split at h
  · cases h
    exact .inr rfl
  · exact .inl h

theorem latest_add (s : FileSet) (path content : Text) (flags : FileFlags) (p : Text) :
    (s.add path content flags).latest.lookup p =
      if p = Path.clean path then some s.nextId else s.latest.lookup p :=
  lookup_bind _ _ _ _

/-- A file that is added becomes the last one of its path, and others stay as they are. -/
theorem IsCoherent.add {s : FileSet} (h : s.IsCoherent) (hroom : s.size < capacity)
    (path content : Text) (flags : FileFlags) : (s.add path content flags).IsCoherent := by
  have hnext := toNat_nextId hroom
  have hsize : (s.add path content flags).size = s.size + 1 := Array.size_push _
  refine ⟨hsize ▸ hroom, ?_, ?_⟩
  · intro p i hlookup
    rw [latest_add] at hlookup
    split at hlookup
    · rename_i hp
      cases hlookup
      refine ⟨⟨s.newFile path content flags, ?_, hp.symm⟩, ?_⟩
      · rw [getElem?_add, hnext, if_pos rfl]
      · intro j f hf _
        have hlt := lt_size hf
        omega
    · rename_i hp
      obtain ⟨⟨f, hf, hpath⟩, hlast⟩ := h.found hlookup
      refine ⟨⟨f, getElem?_add_of_some hf path content flags, hpath⟩, ?_⟩
      intro j g hg hgpath
      rcases of_getElem?_add hg with hold | hnew
      · exact hlast j g hold hgpath
      · exact absurd (hgpath.symm.trans hnew) hp
  · intro p hlookup j f hf hpath
    rw [latest_add] at hlookup
    split at hlookup
    · cases hlookup
    · rename_i hp
      rcases of_getElem?_add hf with hold | hnew
      · exact h.absent hlookup j f hold hpath
      · exact hp (hpath.symm.trans hnew)

theorem IsCoherent.receive {s : FileSet} (h : s.IsCoherent) (x : Offer) :
    (s.receive x).2.IsCoherent := by
  rcases receive_cases s x with ⟨path, content, flags, _, hroom, heq⟩ | ⟨e, _, heq⟩
  · rw [heq]
    exact h.add hroom path content flags
  · rw [heq]
    exact h

/-- A file that is there stays. -/
theorem getElem?_receive {s : FileSet} {i : Nat} {f : SourceFile} (h : s.files[i]? = some f)
    (x : Offer) : (s.receive x).2.files[i]? = some f := by
  rcases receive_cases s x with ⟨path, content, flags, _, _, heq⟩ | ⟨e, _, heq⟩
  · rw [heq]
    exact getElem?_add_of_some h path content flags
  · rw [heq, h]

theorem size_receive (s : FileSet) (x : Offer) :
    (s.receive x).2.size = s.size + if (s.receive x).1.isOk then 1 else 0 := by
  rcases receive_cases s x with ⟨path, content, flags, _, _, heq⟩ | ⟨e, _, heq⟩
  · rw [heq]
    exact Array.size_push _
  · rw [heq]
    rfl

/-! ## A list of offers -/

/-- The set after a list of offers. -/
def after (s : FileSet) (xs : List Offer) : FileSet := xs.foldl (fun s x => (s.receive x).2) s

/-- What is answered to them. -/
def answers : FileSet → List Offer → List (Except Refusal UInt32)
  | _, [] => []
  | s, x :: xs => (s.receive x).1 :: answers (s.receive x).2 xs

theorem after_append (s : FileSet) (xs ys : List Offer) :
    s.after (xs ++ ys) = (s.after xs).after ys := List.foldl_append

theorem isCoherent_after {s : FileSet} (h : s.IsCoherent) (xs : List Offer) :
    (s.after xs).IsCoherent := by
  induction xs generalizing s with
  | nil => exact h
  | cons x xs ih => exact ih (h.receive x)

theorem getElem?_after {s : FileSet} {i : Nat} {f : SourceFile} (h : s.files[i]? = some f)
    (xs : List Offer) : (s.after xs).files[i]? = some f := by
  induction xs generalizing s with
  | nil => exact h
  | cons x xs ih => exact ih (getElem?_receive h x)

/-- A set grows by the offers that it takes. -/
theorem size_after (s : FileSet) (xs : List Offer) :
    (s.after xs).size = s.size + (s.answers xs).countP (·.isOk) := by
  induction xs generalizing s with
  | nil => rfl
  | cons x xs ih =>
      rw [answers, List.countP_cons, ← Nat.add_assoc, Nat.add_right_comm, ← size_receive]
      exact ih (s.receive x).2

/-- Whatever is offered to a new set, in whatever order: the identifiers count the offers that were
taken. Each of these stays under its identifier, with its content and all that is made from it. A
refused offer changes nothing. And a path leads to the greatest identifier of a file
with that path, or nowhere when there is no such file. -/
theorem history_kept (base : Text) (xs : List Offer) :
    let new : FileSet := { base }
    let s := new.after xs
    s.size = (new.answers xs).countP (·.isOk) ∧
    (∀ before x later, xs = before ++ x :: later →
      match ((new.after before).receive x).1 with
      | .ok id =>
          id.toNat = (new.answers before).countP (·.isOk) ∧
          ∃ path content flags, x.Holds path content flags ∧
            s.get? id = some
              { id
                path := Path.clean path
                content
                lineIndex := (SourceFile.lineFeeds 0 content).toArray
                hash := Digest.sha256 content
                flags }
      | .error e =>
          x.Fails ((new.answers before).countP (·.isOk)) e ∧ s = new.after (before ++ later)) ∧
    ∀ p, match s.latest? p with
      | some i =>
          (∃ f, s.get? i = some f ∧ f.path = Path.clean p) ∧
          ∀ j f, s.get? j = some f → f.path = Path.clean p → j ≤ i
      | none => ∀ j f, s.get? j = some f → f.path ≠ Path.clean p := by
  intro new s
  have hcount (ys : List Offer) : (new.after ys).size = (new.answers ys).countP (·.isOk) := by
    rw [size_after]
    exact Nat.zero_add _
  refine ⟨hcount xs, ?_, ?_⟩
  · rintro before x later rfl
    have hs : s = ((new.after before).receive x).2.after later := after_append _ _ _
    rcases receive_cases (new.after before) x with
      ⟨path, content, flags, hholds, hroom, heq⟩ | ⟨e, hfails, heq⟩
    · have hid := toNat_nextId hroom
      rw [heq]
      refine ⟨hid.trans (hcount before), path, content, flags, hholds, ?_⟩
      rw [hs, heq, get?]
      refine getElem?_after ?_ later
      rw [getElem?_add, hid, if_pos rfl]
      rfl
    · rw [heq]
      refine ⟨hcount before ▸ hfails, ?_⟩
      rw [hs, heq, after_append]
  · intro p
    have hcoherent : s.IsCoherent := isCoherent_after (isCoherent_empty base) xs
    rw [latest?]
    cases hlookup : s.latest.lookup (Path.clean p) with
    | some i =>
        obtain ⟨hfile, hlast⟩ := hcoherent.found hlookup
        refine ⟨hfile, ?_⟩
        intro j f hf hpath
        exact UInt32.le_iff_toNat_le.mpr (hlast j.toNat f hf hpath)
    | none =>
        intro j f hf
        exact hcoherent.absent hlookup j.toNat f hf

/-- Two spellings of one path, and a file that is missing in between. -/
theorem history_kept_versions :
    let missing : Offer := .disk { root := .empty, here := [] } (bytes "c.cpp")
    let s := ({} : FileSet).after
      [.virtual (bytes "a/../b.cpp") (bytes "x\n"), missing, .plain (bytes "b.cpp") (bytes "y") 0]
    s.size = 2 ∧ s.latest? (bytes "./b.cpp") = some 1 ∧
    (s.get? 0).map (fun f => (f.path, f.content)) = some (bytes "b.cpp", bytes "x\n") ∧
    missing.Fails 1 (.unreadable ⟨"open", bytes "c.cpp", .notFound⟩) := by
  intro missing s
  obtain ⟨hsize, hoffers, _⟩ := history_kept []
    [.virtual (bytes "a/../b.cpp") (bytes "x\n"), missing, .plain (bytes "b.cpp") (bytes "y") 0]
  obtain ⟨_, path, content, flags, hholds, hget⟩ := hoffers [] _ _ rfl
  obtain ⟨hfails, _⟩ := hoffers [_] _ _ rfl
  refine ⟨hsize, by decide +kernel, ?_, hfails⟩
  have hfile : s.get? 0 = _ := hget
  rw [hfile]
  cases hholds
  decide +kernel

end LineReview.FileSet
