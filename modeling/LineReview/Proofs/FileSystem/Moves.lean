import LineReview.Proofs.FileSystem.Walk

/-!
# Moving and making folders

A path is followed to the folder before its last name first (`Reaches.split`),
so making, moving and removing what it leads to comes down to one name in
one folder. `attemptFoldersFuel_cases` says where the folder of a path stands after it
was made.

Moving a folder aside takes nodes away where it stood and adds some where nothing
stood. A path that led somewhere before leads to the same position afterwards or
to none (`Reaches.agree`).
-/

namespace LineReview

namespace Node

theorem sameKind_of_top {x y : Node} (h : x.top = y.top) : SameKind x y := by
  cases x <;> cases y <;> simp_all [top, empty, SameKind]

/-- Where both trees have a node, the two are of one kind. -/
def Agree (m n : Node) : Prop :=
  ∀ q x y, m.get? q = some x → n.get? q = some y → SameKind x y

theorem agree_of_top {m n : Node}
    (h : ∀ q x y, m.get? q = some x → n.get? q = some y → x.top = y.top) : Agree m n :=
  fun q x y hx hy => sameKind_of_top (h q x y hx hy)

/-- What is left after something was taken away was there before. -/
theorem get?_of_remove {p q : List Text} {n y : Node} (h : (remove p n).get? q = some y) :
    ∃ z, n.get? q = some z ∧ z.top = y.top := by
  by_cases hnil : p = []
  · subst hnil
    exact ⟨y, h, rfl⟩
  by_cases hpq : p <+: q
  · obtain ⟨r, rfl⟩ := hpq
    rw [get?_remove_below hnil] at h
    cases h
  · have htop := top_get?_remove hpq n
    rw [h] at htop
    obtain ⟨z, hz, hzy⟩ := Option.map_eq_some_iff.mp htop.symm
    exact ⟨z, hz, hzy⟩

theorem Agree.remove {m n : Node} (h : Agree m n) (p : List Text) : Agree m (remove p n) := by
  intro q x y hx hy
  obtain ⟨z, hz, htop⟩ := get?_of_remove hy
  exact (h q x z hx hz).trans (sameKind_of_top htop)

/-- A node is moved to a place in a folder where nothing stood, and not into itself. -/
theorem agree_move {root x : Node} {source dir : List Text} {name : Text} {es : Entries}
    (hx : root.get? source = some x) (hdir : root.get? dir = some (.folder es))
    (hfree : root.get? (dir ++ [name]) = none) (hapart : ¬ source <+: dir ++ [name]) :
    Agree root (set x (dir ++ [name]) (remove source root)) ∧
      (set x (dir ++ [name]) (remove source root)).get? source = none := by
  have hkept : ¬ source <+: dir := fun h => hapart (h.trans (List.prefix_append dir [name]))
  have hdir' : ∃ es', (remove source root).get? dir = some (.folder es') := by
    rw [← map_top_eq_empty, top_get?_remove hkept, hdir]
    rfl
  obtain ⟨es', hdir'⟩ := hdir'
  -- nothing stands at the new place or below it, so all other nodes come from the old tree
  have hold (q : List Text) (a : Node) (ha : root.get? q = some a) :
      ((set x (dir ++ [name]) (remove source root)).get? q).map top =
        ((remove source root).get? q).map top := by
    apply top_get?_set hdir'
    rintro ⟨r, rfl⟩
    rw [get?_append, hfree] at ha
    cases ha
  have hne : source ≠ [] := by
    rintro rfl
    exact hapart List.nil_prefix
  have hgone : (remove source root).get? source = none := by
    have hbelow := get?_remove_below hne [] root
    rwa [List.append_nil] at hbelow
  constructor
  · apply agree_of_top
    intro q a b ha hb
    have htop := hold q a ha
    rw [hb] at htop
    obtain ⟨y, hy, hyb⟩ := Option.map_eq_some_iff.mp htop.symm
    obtain ⟨z, hz, hzy⟩ := get?_of_remove hy
    rw [ha] at hz
    cases hz
    exact hzy.trans hyb
  · have htop := hold source x hx
    rw [hgone] at htop
    exact Option.map_eq_none_iff.mp htop

end Node

namespace FileSystem

/-! ## Spellings -/

theorem dropTrailing_of_getLast? {p : Text} (h : p.getLast? ≠ some 47) :
    Text.dropTrailing (· == 47) p = p := by
  rw [Text.dropTrailing]
  cases hp : p.reverse with
  | nil => rw [List.reverse_eq_nil_iff.mp hp]; rfl
  | cons b t =>
      have hb : b ≠ 47 := by
        rintro rfl
        rw [List.getLast?_eq_head?_reverse, hp] at h
        exact h rfl
      rw [List.dropWhile_cons_of_neg (by simpa using hb), ← hp, List.reverse_reverse]

theorem bare_eq_self {p : Text} (h : p.getLast? ≠ some 47) : bare p = p := by
  rw [bare, dropTrailing_of_getLast? h, ite_self]

theorem bare_clean (p : Text) : bare (Path.clean p) = Path.clean p := by
  have hnormal := Path.normal_names p
  by_cases hnil : Path.names p = []
  · rw [Path.clean, hnil]
    cases Path.isAbsolute p <;> decide
  · exact bare_eq_self (Path.getLast?_ofNames hnormal hnil)

theorem before_ofNames {rooted : Bool} {ns : List Text} {last : Text}
    (hns : Path.Normal rooted (ns ++ [last]).reverse) :
    before (Path.ofNames rooted (ns ++ [last])) =
      if ns = [] then [] else Path.ofNames rooted ns := by
  have hlast := Path.getLast?_ofNames hns (by simp)
  have hslash : 47 ∉ last := hns.no_slash last (by simp)
  -- everything behind the last slash is the last name
  have hcut (front : Text) (hfront : front = [] ∨ front.getLast? = some 47) :
      ((front ++ last).reverse.dropWhile (· != 47)).reverse = front := by
    rw [List.reverse_append, List.dropWhile_append_of_pos]
    · rcases hfront with rfl | hfront
      · rfl
      · obtain ⟨init, rfl⟩ := List.getLast?_eq_some_iff.mp hfront
        simp
    · intro b hb
      have hb' : b ∈ last := List.mem_reverse.mp hb
      simp only [bne_iff_ne, ne_eq]
      rintro rfl
      exact hslash hb'
  rw [before, dropTrailing_of_getLast? hlast]
  by_cases hnil : ns = []
  · subst hnil
    cases rooted with
    | true =>
        have heq : Path.ofNames true ([] ++ [last]) = [47] ++ last := rfl
        rw [heq, hcut [47] (Or.inr rfl)]
        rfl
    | false =>
        have heq : Path.ofNames false ([] ++ [last]) = [] ++ last := rfl
        rw [heq, hcut [] (Or.inl rfl)]
        rfl
  · have hnormal : Path.Normal rooted ns.reverse := by
      rw [List.reverse_append] at hns
      exact hns.2.2.2.2
    have hlong : ¬ (Path.ofNames rooted ns ++ [47]).length ≤ 1 := by
      have hpos := List.length_pos_iff.mpr (Path.ofNames_ne_nil hnormal)
      rw [List.length_append, List.length_singleton]
      omega
    have heq : Path.ofNames rooted (ns ++ [last]) = (Path.ofNames rooted ns ++ [47]) ++ last := by
      rw [Path.ofNames_append_name rooted hnil, List.append_assoc, List.singleton_append]
    rw [heq, hcut _ (Or.inr List.getLast?_concat), if_neg hnil]
    simp only [if_neg hlong, List.dropLast_concat]

/-- Where following a spelling of names begins. -/
theorem startOf_ofNames (fs : FileSystem) {rooted : Bool} {ns : List Text}
    (hns : Path.Normal rooted ns.reverse) :
    startOf fs (Path.ofNames rooted ns) = if rooted then [] else fs.here.reverse := by
  rw [startOf, Path.isAbsolute_ofNames hns]

theorem locate_ofNames {fs : FileSystem} {follow rooted : Bool} {ns pos : List Text}
    {o : Option Node} (hns : Path.Normal rooted ns.reverse) (hne : ns ≠ []) :
    fs.locate follow (Path.ofNames rooted ns) = .ok (pos, o) ↔
      IsAcceptable (Path.ofNames rooted ns) ∧
      Reaches fs.root follow maxLinks (if rooted then [] else fs.here.reverse) ns pos.reverse
        o := by
  have hlast := Path.getLast?_ofNames hns hne
  rw [locate_eq_ok_iff, decide_eq_false hlast, Bool.or_false, pieces_ofNames hns hne,
    startOf_ofNames fs hns]
  exact ⟨fun h => ⟨h.1, h.2.1⟩, fun h => ⟨h.1, h.2, fun hslash => absurd hslash hlast⟩⟩

/-! ## The last name of a path -/

/-- A path leads to a folder, and from there by its last name. -/
theorem Reaches.split {root : Node} {follow : Bool} {links : Nat} {at_ ns p : List Text}
    {last : Text} {o : Option Node} (h : Reaches root follow links at_ (ns ++ [last]) p o) :
    ∃ dir es links', Reaches root true links at_ ns dir (some (.folder es)) ∧
      Reaches root follow links' dir [last] p o := by
  generalize hall : ns ++ [last] = all at h
  have hend {links : Nat} {at_ : List Text} {es : Entries}
      (hdir : root.get? at_.reverse = some (.folder es))
      (hlast : Reaches root follow links at_ [last] p o) :
      ∃ dir es links', Reaches root true links at_ [] dir (some (.folder es)) ∧
        Reaches root follow links' dir [last] p o :=
    ⟨at_, es, links, hdir ▸ .done, hlast⟩
  induction h generalizing ns with
  | done => simp at hall
  | here hdir hrest ih =>
      rcases List.append_eq_cons_iff.mp hall with ⟨rfl, heq⟩ | ⟨ns', rfl, heq⟩
      · obtain ⟨rfl, rfl⟩ := List.cons.inj heq.symm
        exact hend hdir (.here hdir hrest)
      · obtain ⟨dir, es, links', hfront, hlast⟩ := ih heq.symm hend
        exact ⟨dir, es, links', .here hdir hfront, hlast⟩
  | up hdir hrest ih =>
      rcases List.append_eq_cons_iff.mp hall with ⟨rfl, heq⟩ | ⟨ns', rfl, heq⟩
      · obtain ⟨rfl, rfl⟩ := List.cons.inj heq.symm
        exact hend hdir (.up hdir hrest)
      · obtain ⟨dir, es, links', hfront, hlast⟩ := ih heq.symm hend
        exact ⟨dir, es, links', .up hdir hfront, hlast⟩
  | missing hdir hname hnone =>
      rcases List.append_eq_cons_iff.mp hall with ⟨rfl, heq⟩ | ⟨ns', rfl, heq⟩
      · obtain ⟨rfl, _⟩ := List.cons.inj heq.symm
        exact hend hdir (.missing hdir hname hnone)
      · simp at heq
  | lastLink hname hfollow hlink =>
      rcases List.append_eq_cons_iff.mp hall with ⟨rfl, heq⟩ | ⟨ns', rfl, heq⟩
      · obtain ⟨rfl, _⟩ := List.cons.inj heq.symm
        obtain ⟨es, hdir⟩ := folder_of_get?_reverse_cons hlink
        exact hend hdir (.lastLink hname hfollow hlink)
      · simp at heq
  | link hname hfollow hlink hrest ih =>
      rcases List.append_eq_cons_iff.mp hall with ⟨rfl, heq⟩ | ⟨ns', rfl, heq⟩
      · obtain ⟨rfl, rfl⟩ := List.cons.inj heq.symm
        obtain ⟨es, hdir⟩ := folder_of_get?_reverse_cons hlink
        exact hend hdir (.link hname hfollow hlink hrest)
      · -- the last name stays behind the names that the link stands for
        obtain ⟨dir, es, links', hfront, hlast⟩ :=
          ih (by rw [List.append_assoc, heq]) hend
        exact ⟨dir, es, links', .link hname (fun _ => rfl) hlink hfront, hlast⟩
  | down hname hx hnot hrest ih =>
      rcases List.append_eq_cons_iff.mp hall with ⟨rfl, heq⟩ | ⟨ns', rfl, heq⟩
      · obtain ⟨rfl, rfl⟩ := List.cons.inj heq.symm
        obtain ⟨es, hdir⟩ := folder_of_get?_reverse_cons hx
        exact hend hdir (.down hname hx hnot hrest)
      · obtain ⟨dir, es, links', hfront, hlast⟩ := ih heq.symm hend
        exact ⟨dir, es, links', .down hname hx hnot hfront, hlast⟩

/-- A last name leads to its own place, when it is not followed further. -/
theorem Reaches.single {root : Node} {links : Nat} {dir p : List Text} {last : Text}
    {o : Option Node} (hhere : last ≠ [46]) (hup : last ≠ [46, 46])
    (h : Reaches root false links dir [last] p o) : p = last :: dir := by
  cases h with
  | here => exact absurd rfl hhere
  | up => exact absurd rfl hup
  | missing => rfl
  | lastLink => rfl
  | link _ hfollow => cases hfollow rfl
  | down _ _ _ hrest =>
      cases hrest
      rfl

/-- A last name with nothing at its place leads to nothing. -/
theorem Reaches.not_some_of_none {root x : Node} {follow : Bool} {links : Nat} {dir p : List Text}
    {last : Text} (hhere : last ≠ [46]) (hup : last ≠ [46, 46])
    (hnone : root.get? (last :: dir).reverse = none) :
    ¬ Reaches root follow links dir [last] p (some x) := by
  intro h
  cases h with
  | here => exact hhere rfl
  | up => exact hup rfl
  | lastLink _ _ hlink => cases hnone.symm.trans hlink
  | link _ _ hlink => cases hnone.symm.trans hlink
  | down _ hx => cases hnone.symm.trans hx

theorem walk_single_ne_notFound {root : Node} {links : Nat} {dir : List Text} {es : Entries}
    (hdir : root.get? dir.reverse = some (.folder es)) (last : Text) :
    walk root false links dir [last] ≠ .error .notFound := by
  rw [walk_cons, hdir]
  dsimp only
  split
  · simp
  split
  · simp [walk_nil]
  split
  · simp [walk_nil]
  split
  · simp
  · simp
  · simp [walk_nil]

theorem locateEnd_ne_notFound (p : Text) (v : List Text × Option Node) :
    locateEnd p v ≠ .error .notFound := by
  unfold locateEnd
  split
  · simp
  · split <;> simp
  · simp

/-- Behind a folder that is there, a last name may be free, but the path does not fail for it. -/
theorem locate_ne_notFound {fs : FileSystem} {rooted : Bool} {ns dir : List Text} {last : Text}
    {es : Entries} (hns : Path.Normal rooted (ns ++ [last]).reverse)
    (hdir : Reaches fs.root true maxLinks (if rooted then [] else fs.here.reverse) ns dir
      (some (.folder es))) :
    fs.locate false (Path.ofNames rooted (ns ++ [last])) ≠ .error .notFound := by
  have hne : ns ++ [last] ≠ [] := by simp
  obtain ⟨links, hwalk⟩ := walk_append hdir (List.cons_ne_nil last []) false
  have hsingle : walk fs.root false links dir [last] ≠ .error .notFound :=
    walk_single_ne_notFound hdir.get? last
  rw [locate_eq, if_neg (Path.ofNames_ne_nil hns), decide_eq_false (Path.getLast?_ofNames hns hne),
    Bool.or_false, startOf_ofNames fs hns, pieces_ofNames hns hne, hwalk]
  split
  · simp
  split
  · simp
  cases hend : walk fs.root false links dir [last] with
  | error r =>
      rw [hend] at hsingle
      exact hsingle
  | ok v => exact locateEnd_ne_notFound _ v

/-! ## Links at the end -/

/-- Where a path leads to, with a link at its end left alone. -/
theorem Reaches.unfollowed {root n : Node} {links : Nat} {at_ ns p : List Text}
    (h : Reaches root true links at_ ns p (some n)) :
    ∃ q x, Reaches root false links at_ ns q (some x) := by
  generalize hsome : some n = o at h
  induction h with
  | @done _ at_ =>
      refine ⟨at_, n, ?_⟩
      rw [hsome]
      exact .done
  | here hdir _ ih =>
      obtain ⟨q, x, hrest⟩ := ih hsome
      exact ⟨q, x, .here hdir hrest⟩
  | up hdir _ ih =>
      obtain ⟨q, x, hrest⟩ := ih hsome
      exact ⟨q, x, .up hdir hrest⟩
  | missing => cases hsome
  | lastLink _ hfollow _ => cases hfollow
  | @link _ _ rest _ _ _ _ hname _ hlink _ ih =>
      by_cases hrest : rest = []
      · subst hrest
        exact ⟨_, _, .lastLink hname rfl hlink⟩
      · obtain ⟨q, x, hreach⟩ := ih hsome
        exact ⟨q, x, .link hname (fun hnil => absurd hnil hrest) hlink hreach⟩
  | down hname hx hnot _ ih =>
      obtain ⟨q, x, hrest⟩ := ih hsome
      exact ⟨q, x, .down hname hx hnot hrest⟩

/-- A path with no link at its end leads to the same position when links are followed. -/
theorem Reaches.followed {root n : Node} {links : Nat} {at_ ns p : List Text}
    (h : Reaches root false links at_ ns p (some n)) (hnot : ∀ target, n ≠ .link target) :
    Reaches root true links at_ ns p (some n) := by
  generalize hsome : some n = o at h
  induction h with
  | done => exact .done
  | here hdir _ ih => exact .here hdir (ih hsome)
  | up hdir _ ih => exact .up hdir (ih hsome)
  | missing => cases hsome
  | lastLink =>
      cases hsome
      exact absurd rfl (hnot _)
  | link hname hfollow hlink _ ih => exact .link hname (fun _ => rfl) hlink (ih hsome)
  | down hname hx hlink _ ih => exact .down hname hx hlink (ih hsome)

theorem locate_unfollowed {fs : FileSystem} {p : Text} {pos : List Text} {n : Node}
    (h : fs.locate true p = .ok (pos, some n)) : ∃ q x, fs.locate false p = .ok (q, some x) := by
  by_cases hslash : p.getLast? = some 47
  · -- a slash at the end asks for the folder, so links are followed in any case
    refine ⟨pos, n, ?_⟩
    rw [locate_eq_ok_iff] at h ⊢
    simpa [hslash] using h
  · obtain ⟨haccept, hreach, _⟩ := locate_eq_ok_iff.mp h
    obtain ⟨q, x, hreach'⟩ := hreach.unfollowed
    refine ⟨q.reverse, x, locate_eq_ok_iff.mpr ⟨haccept, ?_, fun h => absurd h hslash⟩⟩
    rw [List.reverse_reverse, decide_eq_false hslash]
    exact hreach'

/-- In a tree that agrees with the first, a path leads to the same position or to none. -/
theorem Reaches.agree {root root' n n' : Node} {links : Nat} {at_ ns p p' : List Text}
    (hagree : root.Agree root') (h : Reaches root true links at_ ns p (some n))
    (h' : Reaches root' true links at_ ns p' (some n')) : p' = p := by
  generalize hsome : some n = o at h
  generalize hsome' : some n' = o' at h'
  induction h with
  | done =>
      cases h'
      rfl
  | here _ _ ih =>
      cases h' with
      | here _ hrest => exact ih hsome hrest
      | missing => cases hsome'
      | lastLink hname => exact absurd rfl hname.ne_here
      | link hname => exact absurd rfl hname.ne_here
      | down hname => exact absurd rfl hname.ne_here
  | up _ _ ih =>
      cases h' with
      | up _ hrest => exact ih hsome hrest
      | missing => cases hsome'
      | lastLink hname => exact absurd rfl hname.ne_up
      | link hname => exact absurd rfl hname.ne_up
      | down hname => exact absurd rfl hname.ne_up
  | missing => cases hsome
  | lastLink _ hfollow => cases hfollow
  | link hname _ hlink _ ih =>
      cases h' with
      | here => exact absurd rfl hname.ne_here
      | up => exact absurd rfl hname.ne_up
      | missing => cases hsome'
      | lastLink _ hfollow => cases hfollow
      | link _ _ hlink' hrest =>
          obtain rfl := hagree _ _ _ hlink hlink'
          exact ih hsome hrest
      | @down _ _ _ _ _ _ x _ hx hnot _ =>
          have hkind := hagree _ _ _ hlink hx
          cases x with
          | link target => exact absurd rfl (hnot target)
          | file c => exact hkind.elim
          | folder es => exact hkind.elim
  | @down _ _ _ _ _ _ x hname hx hnot _ ih =>
      cases h' with
      | here => exact absurd rfl hname.ne_here
      | up => exact absurd rfl hname.ne_up
      | missing => cases hsome'
      | lastLink _ hfollow => cases hfollow
      | link _ _ hlink _ =>
          have hkind := hagree _ _ _ hx hlink
          cases x with
          | link target => exact absurd rfl (hnot target)
          | file c => exact hkind.elim
          | folder es => exact hkind.elim
      | down _ _ _ hrest => exact ih hsome hrest

/-- Where a tree agrees with the first but has nothing at the place that a path led to, the path
leads to nothing. -/
theorem not_locate_of_agree {fs fs' : FileSystem} {rooted : Bool} {ns source pos : List Text}
    {last : Text} {x n : Node} (hns : Path.Normal rooted (ns ++ [last]).reverse)
    (hhere : last ≠ [46]) (hup : last ≠ Path.up)
    (hlocate : fs.locate false (Path.ofNames rooted (ns ++ [last])) = .ok (source, some x))
    (hsame : fs'.here = fs.here) (hagree : fs.root.Agree fs'.root)
    (hgone : fs'.root.get? source = none) :
    fs'.locate true (Path.ofNames rooted (ns ++ [last])) ≠ .ok (pos, some n) := by
  intro hlocate'
  obtain ⟨_, hreach⟩ := (locate_ofNames hns (by simp)).mp hlocate
  obtain ⟨_, hreach'⟩ := (locate_ofNames hns (by simp)).mp hlocate'
  obtain ⟨dir, _, _, hfront, hlast⟩ := hreach.split
  obtain ⟨dir', _, _, hfront', hlast'⟩ := hreach'.split
  -- both paths lead to one folder, and only the place of the last name in it has changed
  rw [hsame] at hfront'
  obtain rfl := hfront.agree hagree hfront'
  have hplace := hlast.single hhere hup
  refine Reaches.not_some_of_none hhere hup ?_ hlast'
  rw [← hplace, List.reverse_reverse]
  exact hgone

/-- A path that leads to a free place leads to what is put there. -/
theorem Reaches.fill {root root' new : Node} {links : Nat} {at_ ns p : List Text}
    (h : Reaches root false links at_ ns p none) (hshape : root.Shape root')
    (hnew : root'.get? p.reverse = some new) (hnot : ∀ target, new ≠ .link target)
    (follow : Bool) : Reaches root' follow links at_ ns p (some new) := by
  generalize hnone : (none : Option Node) = o at h
  induction h with
  | done => exact hnew ▸ .done
  | here hdir _ ih =>
      obtain ⟨es, hdir'⟩ := hshape.folder hdir
      exact .here hdir' (ih hnew hnone)
  | up hdir _ ih =>
      obtain ⟨es, hdir'⟩ := hshape.folder hdir
      exact .up hdir' (ih hnew hnone)
  | missing _ hname _ => exact .down hname hnew hnot (hnew ▸ .done)
  | lastLink => cases hnone
  | link hname hfollow hlink _ ih =>
      exact .link hname (fun hnil => absurd (hfollow hnil) Bool.false_ne_true) (hshape.link hlink)
        (ih hnew hnone)
  | @down _ _ _ _ _ _ x hname hx hlink _ ih =>
      obtain ⟨y, hy, hkind⟩ := hshape _ _ hx
      refine .down hname hy ?_ (ih hnew hnone)
      rintro target rfl
      cases x with
      | link t => exact hlink t rfl
      | file c => exact hkind.elim
      | folder es => exact hkind.elim

/-! ## Making the folders of a path -/

theorem Reaches.unique {root : Node} {follow : Bool} {links : Nat} {at_ ns p p' : List Text}
    {o o' : Option Node} (h : Reaches root follow links at_ ns p o)
    (h' : Reaches root follow links at_ ns p' o') : p = p' ∧ o = o' := by
  rw [← walk_eq_ok_iff] at h h'
  rw [h] at h'
  cases h'
  exact ⟨rfl, rfl⟩

/-- Behind a parent step something stands. -/
theorem Reaches.ne_up_of_none {root : Node} {follow : Bool} {links : Nat} {at_ ns p : List Text}
    {last : Text} (h : Reaches root follow links at_ (ns ++ [last]) p none) : last ≠ Path.up := by
  rintro rfl
  obtain ⟨dir, es, links', hfront, hlast⟩ := h.split
  have habove := isSome_get?_tail (by rw [hfront.get?]; rfl : (root.get? dir.reverse).isSome)
  generalize hnone : (none : Option Node) = o at hlast
  cases hlast with
  | up _ hrest =>
      have hget := hrest.get?
      cases hrest
      rw [← hnone] at habove
      cases habove
  | missing _ hname => exact hname.ne_up rfl
  | lastLink hname => exact hname.ne_up rfl
  | link hname => exact hname.ne_up rfl
  | down hname => exact hname.ne_up rfl

/-- A folder that is made is found, empty, at the end of its path. -/
theorem makeFolder_cases {fs fs' : FileSystem} {rooted : Bool} {ns : List Text} {last : Text}
    (hns : Path.Normal rooted (ns ++ [last]).reverse)
    (h : fs.makeFolder (Path.ofNames rooted (ns ++ [last])) = .ok fs') :
    last ≠ Path.up ∧ ∃ pos, ∀ follow,
      fs'.locate follow (Path.ofNames rooted (ns ++ [last])) = .ok (pos, some .empty) := by
  have hne : ns ++ [last] ≠ [] := by simp
  rw [makeFolder, bare_eq_self (Path.getLast?_ofNames hns hne)] at h
  split at h
  · cases h
  · cases h
  · next pos hlocate =>
      cases h
      obtain ⟨haccept, hreach⟩ := (locate_ofNames hns hne).mp hlocate
      obtain ⟨dir, name, es, rfl, hdir, hnone⟩ := folder_of_locate_none hlocate
      refine ⟨hreach.ne_up_of_none, dir ++ [name], fun follow => ?_⟩
      refine (locate_ofNames hns hne).mpr ⟨haccept, ?_⟩
      refine hreach.fill (Node.grows_set_empty hdir hnone).shape ?_ (by simp [Node.empty]) follow
      rw [List.reverse_reverse]
      exact Node.get?_set_self _ _ _

/-- Below an empty folder nothing stands. -/
theorem Reaches.not_below_empty {root x : Node} {follow : Bool} {links : Nat}
    {at_ ns p dir : List Text} {last : Text} (hhere : last ≠ [46]) (hup : last ≠ Path.up)
    (hempty : Reaches root true links at_ ns dir (some .empty)) :
    ¬ Reaches root follow links at_ (ns ++ [last]) p (some x) := by
  intro h
  obtain ⟨dir', es, links', hfront, hlast⟩ := h.split
  obtain ⟨rfl, heq⟩ := hfront.unique hempty
  refine Reaches.not_some_of_none hhere hup ?_ hlast
  exact get?_reverse_cons last hempty.get?

/-- When the folders of a path were made, the path leads to a folder that stood before, and nothing
was made, or to a new one. -/
theorem attemptFoldersFuel_cases {fuel : Nat} {fs fs' : FileSystem} {rooted : Bool}
    {ns : List Text} {last : Text} (hns : Path.Normal rooted (ns ++ [last]).reverse)
    (h : attemptFoldersFuel fuel fs (Path.ofNames rooted (ns ++ [last])) = (fs', none)) :
    (fs' = fs ∧ ∃ pos es,
      fs.locate true (Path.ofNames rooted (ns ++ [last])) = .ok (pos, some (.folder es))) ∨
    (last ≠ Path.up ∧ ∃ pos, ∀ follow,
      fs'.locate follow (Path.ofNames rooted (ns ++ [last])) = .ok (pos, some .empty)) := by
  induction fuel generalizing fs fs' ns last with
  | zero => simp [attemptFoldersFuel] at h
  | succ fuel ih =>
      have hhere : last ≠ [46] := by
        rw [List.reverse_append] at hns
        exact hns.2.1
      rw [attemptFoldersFuel] at h
      split at h
      · next es hlookup =>
          cases h
          obtain ⟨pos, hlocate⟩ := lookup_eq_ok_iff.mp hlookup
          exact Or.inl ⟨rfl, pos, es, hlocate⟩
      · cases h
      · next hlookup =>
          -- a folder at the end would have been found at once
          have hnot (pos : List Text) (es : Entries) :
              fs.locate false (Path.ofNames rooted (ns ++ [last])) ≠
                .ok (pos, some (.folder es)) := by
            intro hlocate
            rw [locate_ofNames hns (by simp)] at hlocate
            have hfollowed := (locate_ofNames hns (by simp)).mpr
              ⟨hlocate.1, hlocate.2.followed (by simp)⟩
            rw [lookup_eq_ok_iff.mpr ⟨pos, hfollowed⟩] at hlookup
            cases hlookup
          split at h
          · cases h
          · next fs₁ hfirst =>
              -- either nothing was made, or the folder before the last name is new and empty
              have hfront : fs₁ = fs ∨ ∀ pos x,
                  fs₁.locate false (Path.ofNames rooted (ns ++ [last])) ≠ .ok (pos, some x) := by
                rw [before_ofNames hns] at hfirst
                rcases List.eq_nil_or_concat' ns with rfl | ⟨front, prior, rfl⟩
                · cases hfirst
                  exact Or.inl rfl
                · rw [List.reverse_append] at hns
                  have hrest : Path.Normal rooted (front ++ [prior]).reverse := hns.2.2.2.2
                  rw [if_neg (by simp : front ++ [prior] ≠ []),
                    if_neg (Path.ofNames_ne_nil hrest)] at hfirst
                  rcases ih hrest hfirst with ⟨heq, _⟩ | ⟨hprior, dir, hempty⟩
                  · exact Or.inl heq
                  · have hup : last ≠ Path.up := fun hup =>
                      hprior ((hns.2.2.2.1 hup).2 prior (by simp))
                    have hreach := ((locate_ofNames hrest (by simp)).mp (hempty true)).2
                    refine Or.inr fun pos x hlocate => ?_
                    rw [← List.reverse_append] at hns
                    have hbelow := ((locate_ofNames hns (by simp)).mp hlocate).2
                    exact hreach.not_below_empty hhere hup hbelow
              split at h
              · next hmake =>
                  cases h
                  exact Or.inr (makeFolder_cases hns hmake)
              · split at h
                · next es hfolder =>
                    obtain ⟨pos, hlocate⟩ := lookup_eq_ok_iff.mp hfolder
                    rcases hfront with rfl | hnone
                    · exact absurd hlocate (hnot pos es)
                    · exact absurd hlocate (hnone pos _)
                · cases h

/-! ## Moving and removing -/

theorem rename_cases {fs fs' : FileSystem} {old new : Text} (h : fs.rename old new = .ok fs') :
    ∃ source x target there,
      fs.locate false (bare old) = .ok (source, some x) ∧
      fs.locate false (bare new) = .ok (target, there) ∧
      isNamed old = true ∧
      ((source = target ∧ fs' = fs) ∨
        (¬ source <+: target ∧ (∀ es, there ≠ some (.folder es)) ∧
          fs' = { fs with root := Node.set x target (Node.remove source fs.root) })) := by
  unfold rename at h
  split at h
  · cases h
  · cases h
  · next source x hsource =>
      split at h
      · cases h
      · next target there htarget =>
          refine ⟨source, x, target, there, hsource, htarget, ?_⟩
          by_cases hthere : there.any Node.isFolder && (source ≠ target || old = new)
          · rw [if_pos hthere] at h
            cases h
          rw [if_neg hthere] at h
          by_cases hnamed : (!isNamed old || !isNamed new) = true
          · rw [if_pos hnamed] at h
            cases h
          rw [if_neg hnamed] at h
          simp only [Bool.or_eq_true, Bool.not_eq_true', not_or, Bool.not_eq_false] at hnamed
          refine ⟨hnamed.1, ?_⟩
          split at h
          · cases h
          split at h
          · next heq =>
              cases h
              exact Or.inl ⟨heq, rfl⟩
          · next hne =>
              split at h
              · cases h
              · next hprefix =>
                  split at h
                  · cases h
                  · cases h
                    refine Or.inr ⟨?_, ?_, rfl⟩
                    · rwa [List.isPrefixOf_iff_prefix] at hprefix
                    · rintro es rfl
                      simp [Node.isFolder, hne] at hthere

/-- What keeps a path that leads somewhere from being moved is something else than that nothing was
found. -/
theorem rename_ne_notFound {fs : FileSystem} {old new : Text} {source : List Text} {x : Node}
    (hold : fs.locate false (bare old) = .ok (source, some x))
    (hnew : fs.locate false (bare new) ≠ .error .notFound) :
    fs.rename old new ≠ .error .notFound := by
  unfold rename
  rw [hold]
  dsimp only
  split
  · next r hr =>
      rintro heq
      cases heq
      exact hnew hr
  · repeat' split
    all_goals simp

theorem removeAll_cases (fs : FileSystem) (p : Text) :
    ∃ pos, fs.removeAll p = { fs with root := fs.root.remove pos } := by
  unfold removeAll
  split
  · exact ⟨_, rfl⟩
  · exact ⟨[], rfl⟩

end FileSystem

end LineReview
