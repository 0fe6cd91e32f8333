import LineReview.FileSystem.Tree
import Mathlib.Data.List.Basic

/-!
# What stands where in a tree

Putting a node at a position changes what stands there and below, turns the
nodes above into folders, and leaves everything else alone: `get?_set_onWay`,
`get?_set_below` and `get?_set_apart`.

Two relations between trees follow from this. A tree `Grows` into another when
only folders were added. It is a `Shape` of another when every node has kept
its place and its kind, whatever the files hold; following a path depends on no
more than that.
-/

namespace LineReview

namespace Entries

theorem find?_insert_self (name : Text) (x : Node) :
    ∀ es : Entries, (es.insert name x).find? name = some x
  | .nil => by simp [insert, find?]
  | .cons n y rest => by
      unfold insert
      by_cases hn : n = name
      · simp [hn, find?]
      · by_cases hless : Text.less name n
        · simp [hn, hless, find?]
        · simp [hn, hless, find?, find?_insert_self name x rest]

theorem find?_insert_of_ne {name other : Text} (h : other ≠ name) (x : Node) :
    ∀ es : Entries, (es.insert name x).find? other = es.find? other
  | .nil => by simp [insert, find?, Ne.symm h]
  | .cons n y rest => by
      unfold insert
      by_cases hn : n = name
      · simp [hn, find?, Ne.symm h]
      · by_cases hless : Text.less name n
        · simp [hn, hless, find?, Ne.symm h]
        · simp [hn, hless, find?, find?_insert_of_ne h x rest]

theorem insert_insert (name : Text) (x y : Node) :
    ∀ es : Entries, (es.insert name x).insert name y = es.insert name y
  | .nil => by simp [insert]
  | .cons n z rest => by
      by_cases hn : n = name
      · simp [insert, hn]
      · by_cases hless : Text.less name n
        · simp [insert, hn, hless]
        · simp [insert, hn, hless, insert_insert name x y rest]

theorem find?_erase_self (name : Text) : ∀ es : Entries, (es.erase name).find? name = none
  | .nil => rfl
  | .cons n y rest => by
      by_cases hn : n = name
      · simp [erase, hn, find?_erase_self name rest]
      · simp [erase, find?, hn, find?_erase_self name rest]

theorem find?_erase_of_ne {name other : Text} (h : other ≠ name) :
    ∀ es : Entries, (es.erase name).find? other = es.find? other
  | .nil => rfl
  | .cons n y rest => by
      by_cases hn : n = name
      · simp [erase, find?, hn, Ne.symm h, find?_erase_of_ne h rest]
      · simp [erase, find?, hn, find?_erase_of_ne h rest]

end Entries

namespace Node

theorem get?_cons (name : Text) (rest : List Text) (n : Node) :
    n.get? (name :: rest) = (n.entries.find? name).bind (get? rest) := by
  cases n <;> rfl

theorem get?_append (p q : List Text) (n : Node) :
    n.get? (p ++ q) = (n.get? p).bind (get? q) := by
  induction p generalizing n with
  | nil => simp [get?]
  | cons name rest ih =>
      rw [List.cons_append, get?_cons, get?_cons]
      cases n.entries.find? name with
      | none => rfl
      | some x => exact ih x

/-- What stands below a node belongs to a folder. -/
theorem folder_of_get?_append {p q : List Text} {n x : Node} (hq : q ≠ [])
    (h : n.get? (p ++ q) = some x) : ∃ es, n.get? p = some (.folder es) := by
  rw [get?_append] at h
  obtain ⟨y, hy, hx⟩ := Option.bind_eq_some_iff.mp h
  cases q with
  | nil => exact absurd rfl hq
  | cons name rest =>
      cases y with
      | folder es => exact ⟨es, hy⟩
      | file c => cases hx
      | link t => cases hx

theorem get?_empty {q : List Text} (hq : q ≠ []) : empty.get? q = none := by
  cases q with
  | nil => exact absurd rfl hq
  | cons name rest => rfl

/-! ## Putting a node -/

/-- On the way to the new node everything is a folder, and at its end the new node stands. -/
theorem get?_set_onWay (new : Node) (p r : List Text) (n : Node) :
    (set new (p ++ r) n).get? p = some (set new r ((n.get? p).getD empty)) := by
  induction p generalizing n with
  | nil => rfl
  | cons name rest ih =>
      rw [List.cons_append, set, get?_cons, entries, Entries.find?_insert_self, Option.bind_some,
        ih, get?_cons]
      cases n.entries.find? name with
      | some x => rfl
      | none =>
          cases rest with
          | nil => rfl
          | cons m ms => rfl

theorem get?_set_self (new : Node) (p : List Text) (n : Node) :
    (set new p n).get? p = some new := by
  have hself := get?_set_onWay new p [] n
  rwa [List.append_nil] at hself

theorem get?_set_below (new : Node) (p q : List Text) (n : Node) :
    (set new p n).get? (p ++ q) = new.get? q := by
  rw [get?_append, get?_set_self]
  rfl

theorem get?_set_above (new : Node) {p r : List Text} (hr : r ≠ []) (n : Node) :
    ∃ es, (set new (p ++ r) n).get? p = some (.folder es) := by
  rw [get?_set_onWay]
  cases r with
  | nil => exact absurd rfl hr
  | cons name rest => exact ⟨_, rfl⟩

/-- What stands neither above nor below the new node stays. -/
theorem get?_set_apart (new : Node) {p q : List Text} (hpq : ¬ p <+: q) (hqp : ¬ q <+: p)
    (n : Node) : (set new p n).get? q = n.get? q := by
  induction p generalizing q n with
  | nil => exact absurd (List.nil_prefix) hpq
  | cons name rest ih =>
      cases q with
      | nil => exact absurd (List.nil_prefix) hqp
      | cons other more =>
          rw [set, get?_cons, get?_cons, entries]
          -- the positions part here, or both lead on below the same name
          by_cases hname : other = name
          · subst hname
            rw [List.cons_prefix_cons] at hpq hqp
            have hmore : ¬ rest <+: more := fun h => hpq ⟨rfl, h⟩
            have hrest : ¬ more <+: rest := fun h => hqp ⟨rfl, h⟩
            rw [Entries.find?_insert_self, Option.bind_some, ih hmore hrest]
            cases n.entries.find? other with
            | some x => rfl
            | none =>
                have hne : more ≠ [] := fun h => hrest (h ▸ List.nil_prefix)
                exact get?_empty hne
          · rw [Entries.find?_insert_of_ne hname]

/-- Only the last node that is put somewhere counts. -/
theorem set_set (new old : Node) (p : List Text) (n : Node) :
    set new p (set old p n) = set new p n := by
  induction p generalizing n with
  | nil => rfl
  | cons name rest ih =>
      simp only [set, entries, Entries.find?_insert_self, Option.getD_some, ih,
        Entries.insert_insert]

/-- Two positions are apart, or one leads to the other. -/
theorem position_cases (p q : List Text) :
    (¬ p <+: q ∧ ¬ q <+: p) ∨ (∃ r, q = p ++ r) ∨ ∃ r, r ≠ [] ∧ p = q ++ r := by
  by_cases hpq : p <+: q
  · obtain ⟨r, rfl⟩ := hpq
    exact Or.inr (Or.inl ⟨r, rfl⟩)
  by_cases hqp : q <+: p
  · obtain ⟨r, rfl⟩ := hqp
    refine Or.inr (Or.inr ⟨r, ?_, rfl⟩)
    rintro rfl
    exact hpq ⟨[], by simp⟩
  · exact Or.inl ⟨hpq, hqp⟩

/-! ## Taking a node away -/

theorem remove_file (p : List Text) (c : Text) : remove p (.file c) = .file c := by
  cases p with
  | nil => rfl
  | cons name rest => cases rest <;> rfl

theorem remove_link (p : List Text) (t : Text) : remove p (.link t) = .link t := by
  cases p with
  | nil => rfl
  | cons name rest => cases rest <;> rfl

theorem remove_folder (p : List Text) (es : Entries) :
    ∃ es', remove p (.folder es) = .folder es' := by
  cases p with
  | nil => exact ⟨es, rfl⟩
  | cons name rest =>
      cases rest with
      | nil => exact ⟨_, rfl⟩
      | cons other rest =>
          simp only [remove]
          split
          · exact ⟨_, rfl⟩
          · exact ⟨es, rfl⟩

/-- Below a name, only what stands there is concerned. -/
theorem get?_remove_cons (name : Text) {rest : List Text} (hrest : rest ≠ []) (q : List Text)
    (n : Node) :
    (remove (name :: rest) n).get? (name :: q) =
      (n.entries.find? name).bind fun x => (remove rest x).get? q := by
  obtain ⟨other, rest, rfl⟩ := List.exists_cons_of_ne_nil hrest
  cases n with
  | file c => rfl
  | link t => rfl
  | folder es =>
      simp only [remove, entries]
      cases hfind : es.find? name with
      | none => rw [get?_cons, entries, hfind]; rfl
      | some x =>
          dsimp only
          rw [get?_cons, entries, Entries.find?_insert_self]
          rfl

/-- On the way to the node only what it stands in changes. -/
theorem get?_remove_onWay (p : List Text) {r : List Text} (hr : r ≠ []) (n : Node) :
    (remove (p ++ r) n).get? p = (n.get? p).map (remove r) := by
  induction p generalizing n with
  | nil => rfl
  | cons name rest ih =>
      have hne : rest ++ r ≠ [] := List.append_ne_nil_of_right_ne_nil rest hr
      rw [List.cons_append, get?_remove_cons name hne, get?_cons]
      cases n.entries.find? name with
      | none => rfl
      | some x => exact ih x

/-- Nothing is left where the node stood and below. -/
theorem get?_remove_below {p : List Text} (hp : p ≠ []) (q : List Text) (n : Node) :
    (remove p n).get? (p ++ q) = none := by
  induction p generalizing n with
  | nil => exact absurd rfl hp
  | cons name rest ih =>
      cases rest with
      | nil =>
          cases n with
          | file c => rfl
          | link t => rfl
          | folder es => simp [remove, get?, Entries.find?_erase_self]
      | cons other rest =>
          rw [List.cons_append, get?_remove_cons name (List.cons_ne_nil other rest)]
          cases n.entries.find? name with
          | none => rfl
          | some x => exact ih (List.cons_ne_nil other rest) x

theorem get?_remove_apart {p q : List Text} (hpq : ¬ p <+: q) (hqp : ¬ q <+: p) (n : Node) :
    (remove p n).get? q = n.get? q := by
  induction p generalizing q n with
  | nil => exact absurd List.nil_prefix hpq
  | cons name rest ih =>
      cases q with
      | nil => exact absurd List.nil_prefix hqp
      | cons other more =>
          by_cases hname : other = name
          · subst hname
            rw [List.cons_prefix_cons] at hpq hqp
            have hmore : ¬ rest <+: more := fun h => hpq ⟨rfl, h⟩
            have hrest : ¬ more <+: rest := fun h => hqp ⟨rfl, h⟩
            have hne : rest ≠ [] := fun h => hmore (h ▸ List.nil_prefix)
            rw [get?_remove_cons other hne, get?_cons]
            cases n.entries.find? other with
            | none => rfl
            | some x => exact ih hmore hrest x
          · cases n with
            | file c => rw [remove_file]
            | link t => rw [remove_link]
            | folder es =>
                cases rest with
                | nil => simp [remove, get?, Entries.find?_erase_of_ne hname]
                | cons next rest =>
                    simp only [remove]
                    split
                    · simp [get?, Entries.find?_insert_of_ne hname]
                    · rfl

/-- A node as such, without what is below it. -/
def top : Node → Node
  | folder _ => empty
  | n => n

theorem top_remove (p : List Text) (n : Node) : (remove p n).top = n.top := by
  cases n with
  | file c => rw [remove_file]
  | link t => rw [remove_link]
  | folder es =>
      obtain ⟨es', heq⟩ := remove_folder p es
      rw [heq]
      rfl

/-- Everything that is not taken away stays as such. -/
theorem top_get?_remove {p q : List Text} (hpq : ¬ p <+: q) (n : Node) :
    ((remove p n).get? q).map top = (n.get? q).map top := by
  rcases position_cases p q with ⟨_, hqp⟩ | ⟨r, rfl⟩ | ⟨r, hr, rfl⟩
  · rw [get?_remove_apart hpq hqp]
  · exact absurd (List.prefix_append p r) hpq
  · rw [get?_remove_onWay q hr, Option.map_map]
    congr 1
    exact funext (top_remove r)

/-- Everything apart from the new node stays as such when it is put into a folder. -/
theorem top_get?_set {root new : Node} {dir q : List Text} {name : Text} {es : Entries}
    (hdir : root.get? dir = some (.folder es)) (hq : ¬ dir ++ [name] <+: q) :
    ((set new (dir ++ [name]) root).get? q).map top = (root.get? q).map top := by
  rcases position_cases (dir ++ [name]) q with ⟨_, hqp⟩ | ⟨r, rfl⟩ | ⟨r, hr, hqr⟩
  · rw [get?_set_apart new hq hqp]
  · exact absurd (List.prefix_append _ r) hq
  · -- above the new node there are folders, before and after
    obtain ⟨es', hset⟩ := get?_set_above new (p := q) hr root
    obtain ⟨r', last, rfl⟩ := List.eq_nil_or_concat r |>.resolve_left hr
    rw [List.concat_eq_append, ← List.append_assoc] at hqr
    obtain ⟨rfl, _⟩ := List.append_inj' hqr rfl
    have hold : ∃ es'', root.get? q = some (.folder es'') := by
      by_cases hnil : r' = []
      · rw [hnil, List.append_nil] at hdir
        exact ⟨es, hdir⟩
      · exact folder_of_get?_append hnil hdir
    obtain ⟨es'', hold⟩ := hold
    rw [List.concat_eq_append, ← List.append_assoc, ← hqr] at hset
    rw [hset, hold]
    rfl

/-! ## Trees of one shape -/

/-- Of one kind: two folders, two files, or two links with the same target. -/
def SameKind : Node → Node → Prop
  | folder _, folder _ => True
  | file _, file _ => True
  | link s, link t => s = t
  | _, _ => False

theorem SameKind.refl (n : Node) : SameKind n n := by
  cases n <;> simp [SameKind]

theorem SameKind.trans {a b c : Node} (hab : SameKind a b) (hbc : SameKind b c) :
    SameKind a c := by
  cases a <;> cases b <;> cases c <;> simp_all [SameKind]

/-- Every node of the first tree stands in the second one, with its kind. -/
def Shape (m n : Node) : Prop :=
  ∀ q x, m.get? q = some x → ∃ y, n.get? q = some y ∧ SameKind x y

theorem Shape.refl (n : Node) : Shape n n := fun _ x hx => ⟨x, hx, SameKind.refl x⟩

theorem Shape.trans {a b c : Node} (hab : Shape a b) (hbc : Shape b c) : Shape a c := by
  intro q x hx
  obtain ⟨y, hy, hxy⟩ := hab q x hx
  obtain ⟨z, hz, hyz⟩ := hbc q y hy
  exact ⟨z, hz, hxy.trans hyz⟩

theorem Shape.folder {m n : Node} (h : Shape m n) {q : List Text} {es : Entries}
    (hq : m.get? q = some (.folder es)) : ∃ es', n.get? q = some (.folder es') := by
  obtain ⟨y, hy, hkind⟩ := h q _ hq
  cases y with
  | folder es' => exact ⟨es', hy⟩
  | file c => exact hkind.elim
  | link t => exact hkind.elim

theorem Shape.link {m n : Node} (h : Shape m n) {q : List Text} {target : Text}
    (hq : m.get? q = some (.link target)) : n.get? q = some (.link target) := by
  obtain ⟨y, hy, hkind⟩ := h q _ hq
  cases y with
  | folder es => exact hkind.elim
  | file c => exact hkind.elim
  | link t => rw [hy, show target = t from hkind]

/-- A node that is put into a folder, where nothing or a node of its kind without anything below
it stood, keeps the shape. -/
theorem shape_set {root new : Node} {dir : List Text} {name : Text} {es : Entries}
    (hdir : root.get? dir = some (.folder es))
    (hold : ∀ old, root.get? (dir ++ [name]) = some old → ∃ c d, old = .file c ∧ new = .file d) :
    Shape root (set new (dir ++ [name]) root) := by
  intro q x hx
  rcases position_cases (dir ++ [name]) q with ⟨hpq, hqp⟩ | ⟨r, rfl⟩ | ⟨r, hr, hq⟩
  · exact ⟨x, by rw [get?_set_apart new hpq hqp, hx], SameKind.refl x⟩
  · rw [get?_append] at hx
    obtain ⟨old, hget, hbelow⟩ := Option.bind_eq_some_iff.mp hx
    obtain ⟨c, d, rfl, rfl⟩ := hold old hget
    cases r with
    | nil =>
        cases hbelow
        exact ⟨.file d, by rw [List.append_nil, get?_set_self], trivial⟩
    | cons a l => cases hbelow
  · rw [hq]
    obtain ⟨es', hfolder⟩ := get?_set_above new (p := q) hr root
    refine ⟨_, hfolder, ?_⟩
    -- `q` leads to the folder `dir`, so what stood there is a folder as well.
    obtain ⟨r', hr'⟩ : ∃ r', dir = q ++ r' := by
      obtain ⟨r', last, rfl⟩ := List.eq_nil_or_concat r |>.resolve_left hr
      refine ⟨r', ?_⟩
      rw [List.concat_eq_append, ← List.append_assoc] at hq
      exact (List.append_inj' hq rfl).1
    rw [hr'] at hdir
    by_cases hnil : r' = []
    · rw [hnil, List.append_nil, hx] at hdir
      cases hdir
      trivial
    · obtain ⟨es'', hes''⟩ := folder_of_get?_append hnil hdir
      rw [hx] at hes''
      cases hes''
      trivial

/-- A new node with nothing below it leaves all other files and links as they were. -/
theorem get?_set_leaf {root new : Node} {dir : List Text} {name : Text} {es : Entries}
    (hdir : root.get? dir = some (.folder es))
    (hold : ∀ old, root.get? (dir ++ [name]) = some old → ∃ c d, old = .file c ∧ new = .file d)
    (hnew : ∀ a l, new.get? (a :: l) = none) {q : List Text} (hq : q ≠ dir ++ [name])
    {x : Node} (hx : ∀ es, x ≠ .folder es) :
    (set new (dir ++ [name]) root).get? q = some x ↔ root.get? q = some x := by
  rcases position_cases (dir ++ [name]) q with ⟨hpq, hqp⟩ | ⟨r, rfl⟩ | ⟨r, hr, hqr⟩
  · rw [get?_set_apart new hpq hqp]
  · cases r with
    | nil => exact absurd (List.append_nil _) hq
    | cons a l =>
        rw [get?_set_below, hnew, get?_append]
        cases hget : root.get? (dir ++ [name]) with
        | none => rfl
        | some old =>
            obtain ⟨c, d, rfl, rfl⟩ := hold old hget
            rfl
  · obtain ⟨es', hfolder⟩ := get?_set_above new (p := q) hr root
    rw [hqr, hfolder]
    constructor
    · intro h
      cases h
      exact absurd rfl (hx _)
    · intro h
      obtain ⟨y, hy, hkind⟩ := shape_set hdir hold q x h
      rw [hqr, hfolder] at hy
      cases hy
      cases x with
      | folder es'' => exact absurd rfl (hx es'')
      | file c => exact hkind.elim
      | link t => exact hkind.elim

/-! ## Trees to which folders are added -/

/-- Files and links are the same, and folders are still there. -/
structure Grows (m n : Node) : Prop where
  folder : ∀ q es, m.get? q = some (.folder es) → ∃ es', n.get? q = some (.folder es')
  file : ∀ q c, n.get? q = some (.file c) ↔ m.get? q = some (.file c)
  link : ∀ q t, n.get? q = some (.link t) ↔ m.get? q = some (.link t)

theorem Grows.refl (n : Node) : Grows n n :=
  ⟨fun _ es h => ⟨es, h⟩, fun _ _ => Iff.rfl, fun _ _ => Iff.rfl⟩

theorem Grows.trans {a b c : Node} (hab : Grows a b) (hbc : Grows b c) : Grows a c := by
  refine ⟨?_, ?_, ?_⟩
  · intro q es h
    obtain ⟨es', h'⟩ := hab.folder q es h
    exact hbc.folder q es' h'
  · intro q t
    exact (hbc.file q t).trans (hab.file q t)
  · intro q t
    exact (hbc.link q t).trans (hab.link q t)

theorem Grows.shape {m n : Node} (h : Grows m n) : Shape m n := by
  intro q x hx
  cases x with
  | folder es =>
      obtain ⟨es', hes'⟩ := h.folder q es hx
      exact ⟨_, hes', trivial⟩
  | file c => exact ⟨_, (h.file q c).mpr hx, trivial⟩
  | link t => exact ⟨_, (h.link q t).mpr hx, rfl⟩

/-- A new empty folder in a folder only adds a folder. -/
theorem grows_set_empty {root : Node} {dir : List Text} {name : Text} {es : Entries}
    (hdir : root.get? dir = some (.folder es)) (hnone : root.get? (dir ++ [name]) = none) :
    Grows root (set empty (dir ++ [name]) root) := by
  have hold : ∀ old, root.get? (dir ++ [name]) = some old →
      ∃ c d, old = .file c ∧ empty = .file d := by
    intro old h
    rw [hnone] at h
    cases h
  have hleaf (q : List Text) (x : Node) (hx : ∀ es, x ≠ .folder es) :
      (set empty (dir ++ [name]) root).get? q = some x ↔ root.get? q = some x := by
    by_cases hq : q = dir ++ [name]
    · rw [hq, get?_set_self, hnone]
      constructor
      · intro h
        cases h
        exact absurd rfl (hx .nil)
      · intro h
        cases h
    · exact get?_set_leaf hdir hold (fun a l => get?_empty (by simp)) hq hx
  refine ⟨?_, ?_, ?_⟩
  · intro q es' h
    exact (shape_set hdir hold).folder h
  · intro q c
    exact hleaf q _ (by simp)
  · intro q t
    exact hleaf q _ (by simp)

theorem map_top_eq_file {o : Option Node} {c : Text} :
    o.map top = some (.file c) ↔ o = some (.file c) := by
  rcases o with _ | _ | _ | _ <;> simp [top, empty]

theorem map_top_eq_link {o : Option Node} {t : Text} :
    o.map top = some (.link t) ↔ o = some (.link t) := by
  rcases o with _ | _ | _ | _ <;> simp [top, empty]

theorem map_top_eq_empty {o : Option Node} :
    o.map top = some empty ↔ ∃ es, o = some (.folder es) := by
  rcases o with _ | _ | _ | _ <;> simp [top, empty]

/-- Where all nodes are the same as such, no folder was lost. -/
theorem grows_of_top {m n : Node} (h : ∀ q, (n.get? q).map top = (m.get? q).map top) :
    Grows m n := by
  refine ⟨?_, ?_, ?_⟩
  · intro q es hes
    rw [← map_top_eq_empty, h q, hes]
    rfl
  · intro q c
    rw [← map_top_eq_file, h q, map_top_eq_file]
  · intro q t
    rw [← map_top_eq_link, h q, map_top_eq_link]

/-- A node that is put into a folder where nothing stood, and taken away again, leaves nothing. -/
theorem grows_remove_set {root : Node} {dir : List Text} {name : Text} {es : Entries} (new : Node)
    (hdir : root.get? dir = some (.folder es)) (hnone : root.get? (dir ++ [name]) = none) :
    Grows root (remove (dir ++ [name]) (set new (dir ++ [name]) root)) := by
  apply grows_of_top
  intro q
  by_cases hq : dir ++ [name] <+: q
  · obtain ⟨r, rfl⟩ := hq
    rw [get?_remove_below (by simp), get?_append _ r root, hnone]
    rfl
  · rw [top_get?_remove hq, top_get?_set hdir hq]

/-! ## Trees without links -/

/-- No link stands anywhere in the tree. -/
def LinkFree (n : Node) : Prop := ∀ q target, n.get? q ≠ some (.link target)

theorem LinkFree.get? {n x : Node} (h : LinkFree n) {p : List Text} (hx : n.get? p = some x) :
    LinkFree x := by
  intro q target hq
  apply h (p ++ q) target
  rw [get?_append, hx]
  exact hq

theorem linkFree_empty : empty.LinkFree := by
  intro q target h
  cases q with
  | nil => cases h
  | cons name rest => cases h

end Node

end LineReview
