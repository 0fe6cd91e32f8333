import LineReview.Proofs.FileSystem.Names
import LineReview.Proofs.FileSystem.Trees

/-!
# Following a path

`Reaches` says by rules what `walk` computes: names are followed one by one,
links are replaced by their targets, and only the last name may be missing.
`walk_eq_ok_iff` joins the two. Everything else is by induction on the rules.

What a path leads to depends on the shape of the tree only (`Reaches.shape`), a
path can be followed in two parts (`walk_append`), and in a tree without
links it leads exactly where its names say (`reaches_linkFree`). Making
folders adds folders and nothing else (`attemptFolders_grows`).
-/

namespace LineReview.FileSystem

/-- A name that is looked up in a folder. -/
structure IsEntryName (name : Text) : Prop where
  short : ¬ maxName < name.length
  ne_here : name ≠ [46]
  ne_up : name ≠ [46, 46]

/-- Following the names from a position leads to a position, and to what stands there. -/
inductive Reaches (root : Node) (follow : Bool) :
    Nat → List Text → List Text → List Text → Option Node → Prop where
  | done {links : Nat} {at_ : List Text} :
      Reaches root follow links at_ [] at_ (root.get? at_.reverse)
  | here {links : Nat} {at_ rest p : List Text} {o : Option Node} {es : Entries}
      (hdir : root.get? at_.reverse = some (.folder es))
      (hrest : Reaches root follow links at_ rest p o) :
      Reaches root follow links at_ ([46] :: rest) p o
  | up {links : Nat} {at_ rest p : List Text} {o : Option Node} {es : Entries}
      (hdir : root.get? at_.reverse = some (.folder es))
      (hrest : Reaches root follow links at_.tail rest p o) :
      Reaches root follow links at_ ([46, 46] :: rest) p o
  | missing {links : Nat} {at_ : List Text} {name : Text} {es : Entries}
      (hdir : root.get? at_.reverse = some (.folder es)) (hname : IsEntryName name)
      (hnone : root.get? (name :: at_).reverse = none) :
      Reaches root follow links at_ [name] (name :: at_) none
  | lastLink {links : Nat} {at_ : List Text} {name target : Text}
      (hname : IsEntryName name) (hfollow : follow = false)
      (hlink : root.get? (name :: at_).reverse = some (.link target)) :
      Reaches root follow links at_ [name] (name :: at_) (some (.link target))
  | link {links : Nat} {at_ rest p : List Text} {o : Option Node} {name target : Text}
      (hname : IsEntryName name) (hfollow : rest = [] → follow = true)
      (hlink : root.get? (name :: at_).reverse = some (.link target))
      (hrest : Reaches root follow links (if Path.isAbsolute target then [] else at_)
        (pieces target ++ rest) p o) :
      Reaches root follow (links + 1) at_ (name :: rest) p o
  | down {links : Nat} {at_ rest p : List Text} {o : Option Node} {name : Text} {x : Node}
      (hname : IsEntryName name) (hx : root.get? (name :: at_).reverse = some x)
      (hnot : ∀ target, x ≠ .link target)
      (hrest : Reaches root follow links (name :: at_) rest p o) :
      Reaches root follow links at_ (name :: rest) p o

/-- What stands in a folder under a name stands one name below it. -/
theorem get?_reverse_cons {root : Node} {at_ : List Text} {es : Entries} (name : Text)
    (hdir : root.get? at_.reverse = some (.folder es)) :
    root.get? (name :: at_).reverse = es.find? name := by
  rw [List.reverse_cons, Node.get?_append, hdir, Option.bind_some, Node.get?_cons]
  cases h : es.find? name <;> simp [Node.entries, h, Node.get?]

theorem folder_of_get?_reverse_cons {root x : Node} {at_ : List Text} {name : Text}
    (h : root.get? (name :: at_).reverse = some x) :
    ∃ es, root.get? at_.reverse = some (.folder es) := by
  rw [List.reverse_cons] at h
  exact Node.folder_of_get?_append (by simp) h

/-- Where a link leads when so many may still be followed. -/
def jump (root : Node) (follow : Bool) :
    Nat → List Text → List Text → Except FileError (List Text × Option Node)
  | 0 => fun _ _ => .error .tooManyLinks
  | links + 1 => walk root follow links

theorem walk_eq_descend (root : Node) (follow : Bool) (links : Nat) :
    walk root follow links = descend root follow (jump root follow links) := by
  cases links <;> rfl

theorem walk_nil (root : Node) (follow : Bool) (links : Nat) (at_ : List Text) :
    walk root follow links at_ [] = .ok (at_, root.get? at_.reverse) := by
  rw [walk_eq_descend, descend]

theorem walk_cons (root : Node) (follow : Bool) (links : Nat) (at_ rest : List Text)
    (name : Text) :
    walk root follow links at_ (name :: rest) =
      match root.get? at_.reverse with
      | none => .error .notFound
      | some (.folder es) =>
        if maxName < name.length then .error .nameTooLong
        else if name = [46] then walk root follow links at_ rest
        else if name = [46, 46] then walk root follow links at_.tail rest
        else match es.find? name with
          | none => if rest = [] then .ok (name :: at_, none) else .error .notFound
          | some (.link target) =>
            if rest = [] && !follow then .ok (name :: at_, some (.link target))
            else jump root follow links (if Path.isAbsolute target then [] else at_)
              (pieces target ++ rest)
          | some _ => walk root follow links (name :: at_) rest
      | some _ => .error .notFolder := by
  simp only [walk_eq_descend]
  rfl

/-- The induction is on the links that may still be followed and, for each number of them, on the
names: only a link makes the names more, and it costs a link. -/
theorem reaches_of_walk {root : Node} {follow : Bool} {links : Nat} {at_ ns p : List Text}
    {o : Option Node} (h : walk root follow links at_ ns = .ok (p, o)) :
    Reaches root follow links at_ ns p o := by
  induction links using Nat.strongRecOn generalizing at_ ns with
  | ind links ihLinks =>
  induction ns generalizing at_ with
  | nil =>
      rw [walk_nil] at h
      cases h
      exact .done
  | cons name rest ih =>
      rw [walk_cons] at h
      cases hdir : root.get? at_.reverse with
      | none =>
          rw [hdir] at h
          cases h
      | some dir =>
          rw [hdir] at h
          cases dir with
          | file c => cases h
          | link t => cases h
          | folder es =>
              dsimp only at h
              by_cases hshort : maxName < name.length
              · rw [if_pos hshort] at h
                cases h
              rw [if_neg hshort] at h
              by_cases hhere : name = [46]
              · rw [if_pos hhere] at h
                exact hhere ▸ .here hdir (ih h)
              rw [if_neg hhere] at h
              by_cases hup : name = [46, 46]
              · rw [if_pos hup] at h
                exact hup ▸ .up hdir (ih h)
              rw [if_neg hup] at h
              have hname : IsEntryName name := ⟨hshort, hhere, hup⟩
              have hentry := get?_reverse_cons name hdir
              cases hfind : es.find? name with
              | none =>
                  rw [hfind] at h hentry
                  by_cases hrest : rest = []
                  · subst hrest
                    cases h
                    exact .missing hdir hname hentry
                  · simp only [if_neg hrest] at h
                    cases h
              | some x =>
                  rw [hfind] at h hentry
                  cases x with
                  | file c => exact .down hname hentry (by simp) (ih h)
                  | folder es' => exact .down hname hentry (by simp) (ih h)
                  | link target =>
                      dsimp only at h
                      by_cases hlast : (decide (rest = []) && !follow) = true
                      · rw [if_pos hlast] at h
                        rw [Bool.and_eq_true, decide_eq_true_eq, Bool.not_eq_true'] at hlast
                        obtain ⟨rfl, hfollow⟩ := hlast
                        cases h
                        exact .lastLink hname hfollow hentry
                      · rw [if_neg hlast] at h
                        cases links with
                        | zero => cases h
                        | succ links =>
                            refine .link hname ?_ hentry (ihLinks links (Nat.lt_succ_self links) h)
                            rintro rfl
                            simpa using hlast

/-! ## One name -/

section Step

variable {root : Node} {follow : Bool} {links : Nat} {at_ rest : List Text} {name : Text}
  {es : Entries}

theorem walk_here (hdir : root.get? at_.reverse = some (.folder es)) :
    walk root follow links at_ ([46] :: rest) = walk root follow links at_ rest := by
  rw [walk_cons, hdir]
  simp [maxName]

theorem walk_up (hdir : root.get? at_.reverse = some (.folder es)) :
    walk root follow links at_ ([46, 46] :: rest) = walk root follow links at_.tail rest := by
  rw [walk_cons, hdir]
  simp [maxName]

theorem walk_link {target : Text} (hname : IsEntryName name) (hfollow : rest = [] → follow = true)
    (hlink : root.get? (name :: at_).reverse = some (.link target)) :
    walk root follow (links + 1) at_ (name :: rest) =
      walk root follow links (if Path.isAbsolute target then [] else at_)
        (pieces target ++ rest) := by
  obtain ⟨es, hdir⟩ := folder_of_get?_reverse_cons hlink
  rw [get?_reverse_cons _ hdir] at hlink
  have hlast : (decide (rest = []) && !follow) = false := by
    by_cases hrest : rest = []
    · simp [hrest, hfollow hrest]
    · simp [hrest]
  rw [walk_cons, hdir]
  simp [hname.short, hname.ne_here, hname.ne_up, hlink, hlast, jump]

theorem walk_down {x : Node} (hname : IsEntryName name)
    (hx : root.get? (name :: at_).reverse = some x) (hnot : ∀ target, x ≠ .link target) :
    walk root follow links at_ (name :: rest) = walk root follow links (name :: at_) rest := by
  obtain ⟨es, hdir⟩ := folder_of_get?_reverse_cons hx
  rw [get?_reverse_cons _ hdir] at hx
  rw [walk_cons, hdir]
  cases x with
  | link target => exact absurd rfl (hnot target)
  | file c => simp [hname.short, hname.ne_here, hname.ne_up, hx]
  | folder es' => simp [hname.short, hname.ne_here, hname.ne_up, hx]

end Step

theorem walk_of_reaches {root : Node} {follow : Bool} {links : Nat} {at_ ns p : List Text}
    {o : Option Node} (h : Reaches root follow links at_ ns p o) :
    walk root follow links at_ ns = .ok (p, o) := by
  induction h with
  | done => rw [walk_nil]
  | here hdir _ ih => rw [walk_here hdir, ih]
  | up hdir _ ih => rw [walk_up hdir, ih]
  | link hname hfollow hlink _ ih => rw [walk_link hname hfollow hlink, ih]
  | down hname hx hnot _ ih => rw [walk_down hname hx hnot, ih]
  | missing hdir hname hnone =>
      rw [get?_reverse_cons _ hdir] at hnone
      rw [walk_cons, hdir]
      simp [hname.short, hname.ne_here, hname.ne_up, hnone]
  | lastLink hname hfollow hlink =>
      obtain ⟨es, hdir⟩ := folder_of_get?_reverse_cons hlink
      rw [get?_reverse_cons _ hdir] at hlink
      rw [walk_cons, hdir]
      simp [hname.short, hname.ne_here, hname.ne_up, hlink, hfollow]

theorem walk_eq_ok_iff {root : Node} {follow : Bool} {links : Nat} {at_ ns p : List Text}
    {o : Option Node} :
    walk root follow links at_ ns = .ok (p, o) ↔ Reaches root follow links at_ ns p o :=
  ⟨reaches_of_walk, walk_of_reaches⟩

/-! ## Whole paths -/

theorem Reaches.get? {root : Node} {follow : Bool} {links : Nat} {at_ ns p : List Text}
    {o : Option Node} (h : Reaches root follow links at_ ns p o) : root.get? p.reverse = o := by
  induction h with
  | done => rfl
  | here _ _ ih => exact ih
  | up _ _ ih => exact ih
  | missing _ _ hnone => exact hnone
  | lastLink _ _ hlink => exact hlink
  | link _ _ _ _ ih => exact ih
  | down _ _ _ _ ih => exact ih

/-- The folder above a folder is there. -/
theorem isSome_get?_tail {root : Node} {at_ : List Text}
    (h : (root.get? at_.reverse).isSome) : (root.get? at_.tail.reverse).isSome := by
  cases at_ with
  | nil => exact h
  | cons name dir =>
      obtain ⟨x, hx⟩ := Option.isSome_iff_exists.mp h
      obtain ⟨es, hdir⟩ := folder_of_get?_reverse_cons hx
      rw [List.tail_cons, hdir]
      rfl

/-- When nothing stands at the end of a path, a folder stands before its last name. -/
theorem Reaches.folder_of_none {root : Node} {follow : Bool} {links : Nat}
    {at_ ns p : List Text} (h : Reaches root follow links at_ ns p none)
    (hstart : (root.get? at_.reverse).isSome ∨ ns ≠ []) :
    ∃ name dir es, p = name :: dir ∧ root.get? dir.reverse = some (.folder es) := by
  generalize hnone : (none : Option Node) = o at h
  induction h with
  | done =>
      rcases hstart with hsome | hne
      · rw [← hnone] at hsome
        cases hsome
      · exact absurd rfl hne
  | here hdir _ ih => exact ih (Or.inl (by rw [hdir]; rfl)) hnone
  | up hdir _ ih => exact ih (Or.inl (isSome_get?_tail (by rw [hdir]; rfl))) hnone
  | missing hdir _ _ => exact ⟨_, _, _, rfl, hdir⟩
  | lastLink _ _ _ => cases hnone
  | link _ _ hlink _ ih =>
      refine ih (Or.inl ?_) hnone
      obtain ⟨es, hdir⟩ := folder_of_get?_reverse_cons hlink
      split
      · rfl
      · rw [hdir]
        rfl
  | down _ hx _ _ ih => exact ih (Or.inl (by rw [hx]; rfl)) hnone

/-- In a tree of the same shape a path leads to the same position. -/
theorem Reaches.shape {root root' : Node} {follow : Bool} {links : Nat} {at_ ns p : List Text}
    {n : Node} (hshape : root.Shape root')
    (h : Reaches root follow links at_ ns p (some n)) :
    ∃ n', Reaches root' follow links at_ ns p (some n') ∧ n.SameKind n' := by
  generalize hsome : some n = o at h
  induction h with
  | @done links at_ =>
      obtain ⟨n', hn', hkind⟩ := hshape _ _ hsome.symm
      exact ⟨n', hn' ▸ .done, hkind⟩
  | here hdir _ ih =>
      obtain ⟨n', hn', hkind⟩ := ih hsome
      obtain ⟨es', hdir'⟩ := hshape.folder hdir
      exact ⟨n', .here hdir' hn', hkind⟩
  | up hdir _ ih =>
      obtain ⟨n', hn', hkind⟩ := ih hsome
      obtain ⟨es', hdir'⟩ := hshape.folder hdir
      exact ⟨n', .up hdir' hn', hkind⟩
  | missing _ _ _ => cases hsome
  | lastLink hname hfollow hlink =>
      cases hsome
      exact ⟨_, .lastLink hname hfollow (hshape.link hlink), rfl⟩
  | link hname hfollow hlink _ ih =>
      obtain ⟨n', hn', hkind⟩ := ih hsome
      exact ⟨n', .link hname hfollow (hshape.link hlink) hn', hkind⟩
  | down hname hx hnot _ ih =>
      obtain ⟨n', hn', hkind⟩ := ih hsome
      obtain ⟨y, hy, hxy⟩ := hshape _ _ hx
      refine ⟨n', .down hname hy ?_ hn', hkind⟩
      rintro target rfl
      rename_i x _
      cases x with
      | folder es => exact hxy.elim
      | file c => exact hxy.elim
      | link t => exact hnot t rfl

/-- Names behind a path that leads to a folder are followed from that folder on. -/
theorem walk_append {root : Node} {links : Nat} {at_ ns p : List Text} {es : Entries}
    (h : Reaches root true links at_ ns p (some (.folder es))) {ms : List Text} (hms : ms ≠ [])
    (follow : Bool) :
    ∃ links', walk root follow links at_ (ns ++ ms) = walk root follow links' p ms := by
  generalize hsome : some (Node.folder es) = o at h
  induction h with
  | @done links _ => exact ⟨links, rfl⟩
  | here hdir _ ih =>
      obtain ⟨links', heq⟩ := ih hsome
      exact ⟨links', by rw [List.cons_append, walk_here hdir, heq]⟩
  | up hdir _ ih =>
      obtain ⟨links', heq⟩ := ih hsome
      exact ⟨links', by rw [List.cons_append, walk_up hdir, heq]⟩
  | missing _ _ _ => cases hsome
  | lastLink _ _ _ => cases hsome
  | @link _ _ rest _ _ _ _ hname _ hlink _ ih =>
      obtain ⟨links', heq⟩ := ih hsome
      have hne : rest ++ ms = [] → follow = true := fun hnil =>
        absurd (List.append_eq_nil_iff.mp hnil).2 hms
      refine ⟨links', ?_⟩
      rw [List.cons_append, walk_link hname hne hlink, ← List.append_assoc, heq]
  | down hname hx hnot _ ih =>
      obtain ⟨links', heq⟩ := ih hsome
      exact ⟨links', by rw [List.cons_append, walk_down hname hx hnot, heq]⟩

/-- In a tree without links, names lead exactly where they say, and none of them is too long. -/
theorem reaches_linkFree {root n : Node} {follow : Bool} {links : Nat} {at_ ms p : List Text}
    {o : Option Node} (hn : root.get? at_.reverse = some n) (hfree : n.LinkFree)
    (hms : ∀ m ∈ ms, Path.IsName m) (h : Reaches root follow links at_ ms p o) :
    p = ms.reverse ++ at_ ∧ n.get? ms = o ∧ ∀ m ∈ ms, IsEntryName m := by
  induction ms generalizing at_ n with
  | nil =>
      cases h
      exact ⟨rfl, hn.symm, nofun⟩
  | cons m ms ih =>
      have hm := hms m List.mem_cons_self
      have hstep : root.get? (m :: at_).reverse = n.get? [m] := by
        rw [List.reverse_cons, Node.get?_append, hn, Option.bind_some]
      cases h with
      | here => exact absurd rfl hm.ne_here
      | up => exact absurd rfl hm.ne_up
      | missing _ hname hnone =>
          exact ⟨rfl, hstep.symm.trans hnone, fun k hk => List.mem_singleton.mp hk ▸ hname⟩
      | lastLink _ _ hlink => exact absurd (hstep.symm.trans hlink) (hfree [m] _)
      | link _ _ hlink _ => exact absurd (hstep.symm.trans hlink) (hfree [m] _)
      | @down _ _ _ _ _ _ x hname hx _ hrest =>
          have hchild := hstep.symm.trans hx
          obtain ⟨hp, hget, hnames⟩ := ih hx (hfree.get? hchild)
            (fun k hk => hms k (List.mem_cons_of_mem _ hk)) hrest
          refine ⟨by rw [hp]; simp, ?_, List.forall_mem_cons.mpr ⟨hname, hnames⟩⟩
          rw [← List.singleton_append, Node.get?_append, hchild]
          exact hget

/-- Names lead to the node that they name, when it is no link or no link is followed at the end. On
the way there are only folders. -/
theorem reaches_get? {root n x : Node} {follow : Bool} {links : Nat} {at_ ms : List Text}
    (hn : root.get? at_.reverse = some n) (hms : ∀ m ∈ ms, IsEntryName m)
    (hx : n.get? ms = some x) (hend : ∀ target, x = .link target → follow = false) :
    Reaches root follow links at_ ms (ms.reverse ++ at_) (some x) := by
  induction ms generalizing at_ n with
  | nil =>
      have hsame : some x = root.get? at_.reverse := hx.symm.trans hn.symm
      rw [hsame]
      exact .done
  | cons m ms ih =>
      rw [← List.singleton_append, Node.get?_append] at hx
      obtain ⟨y, hy, hget⟩ := Option.bind_eq_some_iff.mp hx
      have hstep : root.get? (m :: at_).reverse = some y := by
        rw [List.reverse_cons, Node.get?_append, hn, Option.bind_some, hy]
      have hm := hms m List.mem_cons_self
      have hrest := ih hstep (fun k hk => hms k (List.mem_cons_of_mem _ hk)) hget
      rw [List.reverse_cons, List.append_assoc]
      by_cases hlink : ∃ target, y = .link target
      · -- nothing stands below a link, so it is the last name
        obtain ⟨target, rfl⟩ := hlink
        cases ms with
        | nil =>
            cases hget
            exact .lastLink hm (hend target rfl) hstep
        | cons k ks => cases hget
      · exact .down hm hstep (fun target heq => hlink ⟨target, heq⟩) hrest

/-- In a tree without links, names lead to the node that they name. -/
theorem reaches_of_get? {root n x : Node} {follow : Bool} {links : Nat} {at_ ms : List Text}
    (hn : root.get? at_.reverse = some n) (hfree : n.LinkFree)
    (hms : ∀ m ∈ ms, IsEntryName m) (hx : n.get? ms = some x) :
    Reaches root follow links at_ ms (ms.reverse ++ at_) (some x) := by
  refine reaches_get? hn hms hx ?_
  rintro target rfl
  exact absurd hx (hfree ms target)

/-! ## Positions of paths -/

/-- Where following a path begins, as a list of names in reverse. -/
def startOf (fs : FileSystem) (p : Text) : List Text :=
  if Path.isAbsolute p then [] else fs.here.reverse

/-- A path that can be followed at all. -/
structure IsAcceptable (p : Text) : Prop where
  no_zero : 0 ∉ p
  ne_nil : p ≠ []
  short : ¬ maxPath ≤ p.length

/-- A slash at the end of a path asks for a folder. -/
def locateEnd (p : Text) (v : List Text × Option Node) :
    Except FileError (List Text × Option Node) :=
  match v.2 with
  | some (.folder _) => .ok (v.1.reverse, v.2)
  | some _ => if p.getLast? = some 47 then .error .notFolder else .ok (v.1.reverse, v.2)
  | none => .ok (v.1.reverse, v.2)

theorem locate_eq (fs : FileSystem) (follow : Bool) (p : Text) :
    fs.locate follow p =
      if 0 ∈ p then .error .invalid
      else if p = [] then .error .notFound
      else if maxPath ≤ p.length then .error .nameTooLong
      else (walk fs.root (follow || decide (p.getLast? = some 47)) maxLinks (startOf fs p)
        (pieces p)).bind (locateEnd p) := by
  simp only [locate, startOf, List.contains_eq_mem, decide_eq_true_eq, throw, throwThe,
    MonadExceptOf.throw, bind, pure, Except.pure]
  split
  · rfl
  split
  · rfl
  split
  · rfl
  · rfl

theorem locateEnd_eq_ok_iff {p : Text} {v : List Text × Option Node} {pos : List Text}
    {o : Option Node} :
    locateEnd p v = .ok (pos, o) ↔
      v = (pos.reverse, o) ∧ (p.getLast? = some 47 → ∀ x, o = some x → ∃ es, x = .folder es) := by
  obtain ⟨q, y⟩ := v
  have hok : Except.ok (q.reverse, y) = (Except.ok (pos, o) : Except FileError _) ↔
      (q, y) = (pos.reverse, o) := by
    rw [Except.ok.injEq, Prod.mk.injEq, Prod.mk.injEq, List.reverse_eq_iff]
  -- A file or a link at the end passes when no slash asks for a folder.
  have hleaf (x : Node) (hy : y = some x) (hx : ∀ es, x ≠ .folder es) :
      (if p.getLast? = some 47 then .error .notFolder else .ok (q.reverse, y) :
        Except FileError (List Text × Option Node)) = .ok (pos, o) ↔
      (q, y) = (pos.reverse, o) ∧
        (p.getLast? = some 47 → ∀ x, o = some x → ∃ es, x = .folder es) := by
    by_cases hslash : p.getLast? = some 47
    · rw [if_pos hslash]
      constructor
      · intro h
        cases h
      · rintro ⟨heq, hfolder⟩
        obtain ⟨es, hes⟩ := hfolder hslash x ((Prod.mk.inj heq).2 ▸ hy)
        exact absurd hes (hx es)
    · rw [if_neg hslash, hok]
      exact ⟨fun h => ⟨h, fun hs => absurd hs hslash⟩, fun h => h.1⟩
  rcases y with _ | c | t | es
  · refine hok.trans ⟨fun h => ⟨h, fun _ x hx => ?_⟩, fun h => h.1⟩
    cases h
    cases hx
  · exact hleaf (.file c) rfl (by simp)
  · exact hleaf (.link t) rfl (by simp)
  · refine hok.trans ⟨fun h => ⟨h, fun _ x hx => ?_⟩, fun h => h.1⟩
    cases h
    cases hx
    exact ⟨es, rfl⟩

/-- A path has a position when following it leads there; what stands at the end of a path with a
slash behind it, if anything, is a folder. -/
theorem locate_eq_ok_iff {fs : FileSystem} {follow : Bool} {p : Text} {pos : List Text}
    {o : Option Node} :
    fs.locate follow p = .ok (pos, o) ↔
      IsAcceptable p ∧
      Reaches fs.root (follow || decide (p.getLast? = some 47)) maxLinks (startOf fs p) (pieces p)
        pos.reverse o ∧
      (p.getLast? = some 47 → ∀ x, o = some x → ∃ es, x = .folder es) := by
  rw [locate_eq, ← walk_eq_ok_iff]
  by_cases hzero : 0 ∈ p
  · rw [if_pos hzero]
    exact ⟨fun h => (by cases h), fun h => absurd hzero h.1.no_zero⟩
  by_cases hnil : p = []
  · rw [if_neg hzero, if_pos hnil]
    exact ⟨fun h => (by cases h), fun h => absurd hnil h.1.ne_nil⟩
  by_cases hlong : maxPath ≤ p.length
  · rw [if_neg hzero, if_neg hnil, if_pos hlong]
    exact ⟨fun h => (by cases h), fun h => absurd hlong h.1.short⟩
  rw [if_neg hzero, if_neg hnil, if_neg hlong]
  cases hwalk : walk fs.root (follow || decide (p.getLast? = some 47)) maxLinks (startOf fs p)
      (pieces p) with
  | error e => exact ⟨fun h => (by cases h), fun h => (by cases h.2.1)⟩
  | ok v =>
      refine locateEnd_eq_ok_iff.trans ?_
      rw [Except.ok.injEq]
      exact ⟨fun h => ⟨⟨hzero, hnil, hlong⟩, h⟩, fun h => h.2⟩

/-- What a path is found to lead to stands at its position. -/
theorem get?_of_locate {fs : FileSystem} {follow : Bool} {p : Text} {pos : List Text}
    {o : Option Node} (h : fs.locate follow p = .ok (pos, o)) : fs.root.get? pos = o := by
  have hget := (locate_eq_ok_iff.mp h).2.1.get?
  rwa [List.reverse_reverse] at hget

/-- In a tree of the same shape a path has the same position. -/
theorem locate_shape {fs fs' : FileSystem} {follow : Bool} {p : Text} {pos : List Text}
    {es : Entries} (h : fs.locate follow p = .ok (pos, some (.folder es))) (hhere : fs'.here = fs.here)
    (hshape : fs.root.Shape fs'.root) :
    ∃ es', fs'.locate follow p = .ok (pos, some (.folder es')) := by
  obtain ⟨haccept, hreach, _⟩ := locate_eq_ok_iff.mp h
  obtain ⟨n', hreach', hkind⟩ := hreach.shape hshape
  have hstart : startOf fs' p = startOf fs p := by rw [startOf, startOf, hhere]
  cases n' with
  | file t => exact hkind.elim
  | link t => exact hkind.elim
  | folder es' =>
      refine ⟨es', locate_eq_ok_iff.mpr ⟨haccept, hstart ▸ hreach', ?_⟩⟩
      rintro _ x ⟨⟩
      exact ⟨es', rfl⟩

theorem lookup_eq_ok_iff {fs : FileSystem} {follow : Bool} {p : Text} {n : Node} :
    fs.lookup follow p = .ok n ↔ ∃ pos, fs.locate follow p = .ok (pos, some n) := by
  simp only [lookup, throw, throwThe, MonadExceptOf.throw, bind, pure, Except.pure]
  cases h : fs.locate follow p with
  | error e => simp [Except.bind]
  | ok v =>
      obtain ⟨pos, o⟩ := v
      cases o with
      | none => simp [Except.bind]
      | some x => simp [Except.bind, eq_comm]

theorem read_eq_ok_iff {fs : FileSystem} {p content : Text} :
    fs.read p = .ok content ↔ ∃ pos, fs.locate true p = .ok (pos, some (.file content)) := by
  rw [← lookup_eq_ok_iff, read]
  cases h : fs.lookup true p with
  | error e => simp
  | ok n => cases n <;> simp

/-- A relative path has at least one name. -/
theorem pieces_ne_nil {p : Text} (hne : p ≠ []) (hrelative : Path.isAbsolute p = false) :
    pieces p ≠ [] := by
  cases p with
  | nil => exact absurd rfl hne
  | cons b t =>
      have hb : b ≠ 47 := by
        rintro rfl
        cases hrelative
      have hfirst : ∃ q ∈ Text.splitOn 47 (b :: t), q ≠ [] := by
        cases hs : Text.splitOn 47 t with
        | nil => exact absurd hs (Text.splitOn_ne_nil 47 t)
        | cons q qs => exact ⟨b :: q, by simp [Text.splitOn, hb, hs], by simp⟩
      obtain ⟨q, hq, hqne⟩ := hfirst
      exact List.ne_nil_of_mem (List.mem_filter.mpr ⟨hq, by simpa using hqne⟩)

/-- Where nothing stands at the end of a path, it could be put into a folder. -/
theorem folder_of_locate_none {fs : FileSystem} {follow : Bool} {p : Text} {pos : List Text}
    (h : fs.locate follow p = .ok (pos, none)) :
    ∃ dir name es, pos = dir ++ [name] ∧ fs.root.get? dir = some (.folder es) ∧
      fs.root.get? pos = none := by
  obtain ⟨haccept, hreach, _⟩ := locate_eq_ok_iff.mp h
  have hstart : (fs.root.get? (startOf fs p).reverse).isSome ∨ pieces p ≠ [] := by
    cases habsolute : Path.isAbsolute p with
    | true => exact Or.inl (by simp [startOf, habsolute, Node.get?])
    | false => exact Or.inr (pieces_ne_nil haccept.ne_nil habsolute)
  obtain ⟨name, dir, es, hpos, hdir⟩ := hreach.folder_of_none hstart
  refine ⟨dir.reverse, name, es, ?_, hdir, get?_of_locate h⟩
  rw [List.reverse_eq_iff] at hpos
  rw [hpos, List.reverse_cons]

/-! ## Making folders -/

theorem makeFolder_grows {fs fs' : FileSystem} {p : Text} (h : fs.makeFolder p = .ok fs') :
    fs.root.Grows fs'.root ∧ fs'.here = fs.here := by
  unfold makeFolder at h
  split at h
  · cases h
  · cases h
  · next pos hlocate =>
      cases h
      obtain ⟨dir, name, es, rfl, hdir, hnone⟩ := folder_of_locate_none hlocate
      exact ⟨Node.grows_set_empty hdir hnone, rfl⟩

theorem attemptFoldersFuel_grows (fuel : Nat) (fs : FileSystem) (p : Text) :
    fs.root.Grows (attemptFoldersFuel fuel fs p).1.root ∧
      (attemptFoldersFuel fuel fs p).1.here = fs.here := by
  induction fuel generalizing fs p with
  | zero => exact ⟨.refl _, rfl⟩
  | succ fuel ih =>
      rw [attemptFoldersFuel]
      split
      · exact ⟨.refl _, rfl⟩
      · exact ⟨.refl _, rfl⟩
      · have hbefore : ∀ r, (if before p = [] then (fs, none)
            else attemptFoldersFuel fuel fs (before p)) = r →
            fs.root.Grows r.1.root ∧ r.1.here = fs.here := by
          rintro r rfl
          split
          · exact ⟨.refl _, rfl⟩
          · exact ih fs (before p)
        split
        · next fs₁ e hfirst => exact hbefore _ hfirst
        · next fs₁ hfirst =>
            have hgrown := hbefore _ hfirst
            split
            · next fs₂ hmake =>
                obtain ⟨hgrows, hhere⟩ := makeFolder_grows hmake
                exact ⟨hgrown.1.trans hgrows, hhere.trans hgrown.2⟩
            · split <;> exact hgrown

/-- Making the folders of a path, as far as possible, changes no file and no link. -/
theorem attemptFolders_grows (fs : FileSystem) (p : Text) :
    fs.root.Grows (fs.attemptFolders p).1.root ∧ (fs.attemptFolders p).1.here = fs.here :=
  attemptFoldersFuel_grows _ fs p

end LineReview.FileSystem
