import LineReview.Proofs.Toml.Sections

/-!
# The last assignment counts

A name in a section holds what was assigned to it last. A document can assign to a
name again after it held an array, and can take a name that was implicit, so this
needs to know what the marks of a document mean: a name that is marked implicit holds a
table, and no section is marked as an array as long as only names in sections are
assigned values that are no tables.
-/

namespace LineReview.Toml

namespace Table

/-! ## Opening tables -/

theorem ne_of_find? {t : Table} {s s' : Text} {a b : Option Value} (hs : t.find? s = a)
    (hs' : t.find? s' = b) (hab : a ≠ b) : s ≠ s' := by
  rintro rfl
  exact hab (hs.symm.trans hs')

/-- The second table has more tables in it, possibly in place of other values; the values of its
sections are else those of the first. -/
structure Opens (t t' : Table) : Prop where
  table : ∀ {s u}, t.find? s = some (.table u) → ∃ u', t'.find? s = some (.table u') ∧
    ∀ k, find? u' k = find? u k ∨ ∃ v, find? u' k = some v ∧ v.isTable = true
  other : ∀ {s w}, t.find? s = some w → (∀ u, w ≠ .table u) →
    ∃ w', t'.find? s = some w' ∧ ∀ u, w' ≠ .table u
  new : ∀ {s u' k v}, t.find? s = none → t'.find? s = some (.table u') → find? u' k = some v →
    v.isTable = true

theorem Opens.refl (t : Table) : t.Opens t where
  table {_ u} hs := ⟨u, hs, fun _ => .inl rfl⟩
  other {_ w} hs hw := ⟨w, hs, hw⟩
  new hs hs' _ := by
    rw [hs] at hs'
    cases hs'

theorem opens_put_new {t : Table} {n : Text} {v : Value} (hn : t.find? n = none)
    (hv : ∀ u, v = .table u → u = []) : t.Opens (t.put n v) where
  table {s u} hs :=
    ⟨u, by rw [find?_put_of_ne t (ne_of_find? hs hn nofun), hs], fun _ => .inl rfl⟩
  other {s w} hs hw := ⟨w, by rw [find?_put_of_ne t (ne_of_find? hs hn nofun), hs], hw⟩
  new {s u' k w} hs hs' hk := by
    rw [find?_put] at hs'
    split at hs'
    · cases hv u' (Option.some.inj hs')
      cases hk
    · rw [hs] at hs'
      cases hs'

theorem opens_put_section {t u : Table} {s k : Text} {v : Value} (hs : t.find? s = some (.table u))
    (hv : v.isTable = true) : t.Opens (t.put s (.table (u.put k v))) where
  table {s' u'} hs' := by
    by_cases hne : s' = s
    · subst hne
      rw [hs] at hs'
      cases hs'
      refine ⟨_, find?_put_self .., ?_⟩
      intro k'
      rw [find?_put]
      split
      · exact .inr ⟨v, rfl, hv⟩
      · exact .inl rfl
    · exact ⟨u', by rw [find?_put_of_ne t hne, hs'], fun _ => .inl rfl⟩
  other {s' w} hs' hw := by
    have hne : s' ≠ s := ne_of_find? hs' hs fun heq => hw u (Option.some.inj heq)
    exact ⟨w, by rw [find?_put_of_ne t hne, hs'], hw⟩
  new {s' u' k' w} hs' hnew _ := by
    rw [find?_put_of_ne t (ne_of_find? hs' hs nofun), hs'] at hnew
    cases hnew

theorem opens_put_tables {t : Table} {s : Text} {us us' : List Table}
    (hs : t.find? s = some (.tables us)) : t.Opens (t.put s (.tables us')) where
  table {s' u'} hs' :=
    ⟨u', by rw [find?_put_of_ne t (ne_of_find? hs' hs nofun), hs'], fun _ => .inl rfl⟩
  other {s' w} hs' hw := by
    by_cases hne : s' = s
    · exact ⟨.tables us', by rw [hne, find?_put_self], nofun⟩
    · exact ⟨w, by rw [find?_put_of_ne t hne, hs'], hw⟩
  new {s' u' k' w} hs' hnew _ := by
    rw [find?_put_of_ne t (ne_of_find? hs' hs nofun), hs'] at hnew
    cases hnew

/-- A table is put into a section, or anything further down. -/
theorem opens_update? {t t' : Table} {s n : Text} {key : Key} {v : Value}
    (hv : v.isTable = true ∨ key ≠ [])
    (hup : t.update? (fun u => some (u.put n v)) (s :: key) = some t') : t.Opens t' := by
  obtain ⟨u, u', hs, hu', rfl⟩ | ⟨us, us', hs, rfl⟩ := update?_cons hup
  · obtain ⟨m, w, rfl, ⟨hkey, _, rfl⟩ | ⟨_, hw⟩⟩ := update?_put hu'
    · exact opens_put_section hs (hv.resolve_right fun hne => hne hkey)
    · exact opens_put_section hs hw
  · exact opens_put_tables hs

/-- A section, unless it is no table, has a value of this kind for a name. -/
def HasAt (t : Table) (s k : Text) (P : Value → Prop) : Prop :=
  ∃ w, t.find? s = some w ∧ ∀ u, w = .table u → ∃ v, find? u k = some v ∧ P v

theorem HasAt.opens {t t' : Table} {s k : Text} {P : Value → Prop} (h : t.HasAt s k P)
    (ht : t.Opens t') (hP : ∀ v, v.isTable = true → P v) : t'.HasAt s k P := by
  obtain ⟨w, hs, hw⟩ := h
  by_cases htable : ∃ u, w = .table u
  · obtain ⟨u, rfl⟩ := htable
    obtain ⟨u', hs', hu'⟩ := ht.table hs
    refine ⟨_, hs', ?_⟩
    rintro _ ⟨⟩
    rcases hu' k with hsame | ⟨v, hv, htable⟩
    · rw [hsame]
      exact hw u rfl
    · exact ⟨v, hv, hP v htable⟩
  · obtain ⟨w', hs', hw'⟩ := ht.other hs fun u hu => htable ⟨u, hu⟩
    exact ⟨w', hs', fun u hu => absurd hu (hw' u)⟩

/-- What was put into a section is there. -/
theorem hasAt_update? {t t' : Table} {s n : Text} {v : Value}
    (hup : t.update? (fun u => some (u.put n v)) [s] = some t') : t'.HasAt s n (· = v) := by
  obtain ⟨u, u', _, hu', rfl⟩ | ⟨us, us', _, rfl⟩ := update?_cons hup
  · cases hu'
    refine ⟨_, find?_put_self .., ?_⟩
    rintro _ ⟨⟩
    exact ⟨v, find?_put_self .., rfl⟩
  · exact ⟨_, find?_put_self .., nofun⟩

end Table

namespace Document

/-! ## Values and marks -/

/-- The document has for every name in a section what was assigned last, or a table. `hole` is a
key that may be marked implicit before its table is there. -/
structure Reflects (hole : Key) (d : Document) (l : List (Key × Term)) : Prop where
  assigned : ∀ {s u k v}, d.root.find? s = some (.table u) → Table.find? u k = some v →
    v.isTable = false → ∃ x, assigned? [s, k] l = some x ∧ x.value = v
  present : ∀ {s k x}, ([s, k], x) ∈ l → d.root.HasAt s k fun _ => True
  arrays : ∀ key ∈ d.arrays, 2 ≤ key.length
  implicit : ∀ {s k}, [s, k] ∈ d.implicit → [s, k] ≠ hole → d.root.HasAt s k (·.isTable = true)

namespace Reflects

variable {hole : Key} {d : Document} {l : List (Key × Term)}

theorem weaken (h : Reflects [] d l) (hole : Key) : Reflects hole d l where
  assigned := h.assigned
  present := h.present
  arrays := h.arrays
  implicit hmem _ := h.implicit hmem nofun

/-- Tables are opened, and marks are taken away or set where a table is. -/
theorem opens (h : Reflects hole d l) (d' : Document) (hroot : d.root.Opens d'.root)
    (harrays : d'.arrays = d.arrays) {hole' : Key}
    (himplicit : ∀ {s k}, [s, k] ∈ d'.implicit → [s, k] ≠ hole' →
      [s, k] ∈ d.implicit ∧ [s, k] ≠ hole ∨ d'.root.HasAt s k (·.isTable = true)) :
    Reflects hole' d' l := by
  refine ⟨?_, ?_, by rw [harrays]; exact h.arrays, ?_⟩
  · intro s u' k v hs' hk hv
    cases hs : d.root.find? s with
    | none =>
        rw [hroot.new hs hs' hk] at hv
        cases hv
    | some w =>
        by_cases htable : ∃ u, w = .table u
        · obtain ⟨u, rfl⟩ := htable
          obtain ⟨u'', hs'', hu⟩ := hroot.table hs
          rw [hs'] at hs''
          cases hs''
          rcases hu k with hsame | ⟨v', hv', htable⟩
          · exact h.assigned hs (hsame ▸ hk) hv
          · rw [hk] at hv'
            cases hv'
            rw [hv] at htable
            cases htable
        · obtain ⟨w', hs'', hw'⟩ := hroot.other hs fun u hu => htable ⟨u, hu⟩
          rw [hs'] at hs''
          exact absurd (Option.some.inj hs'').symm (hw' u')
  · intro s k x hmem
    exact (h.present hmem).opens hroot fun _ _ => trivial
  · intro s k hmem hne
    rcases himplicit hmem hne with ⟨hold, hhole⟩ | hnew
    · exact (h.implicit hold hhole).opens hroot fun _ hv => hv
    · exact hnew

/-- The root with a table at a new place. -/
theorem opens_root {d : Document} {context : Key} {t root : Table} {n : Text} {v : Value}
    (ht : tableAt? context d.root = some t)
    (hn : t.find? n = none ∨ context ≠ [] ∨
      ∃ us us', t.find? n = some (.tables us) ∧ v = .tables us')
    (hv : v = .table [] ∨ ∃ us, v = .tables us)
    (hroot : d.root.update? (fun u => some (u.put n v)) context = some root) :
    d.root.Opens root := by
  have htable : v.isTable = true := by rcases hv with rfl | ⟨us, rfl⟩ <;> rfl
  cases context with
  | nil =>
      cases ht
      cases hroot
      rcases hn with hnone | hne | ⟨us, us', hus, rfl⟩
      · refine Table.opens_put_new hnone ?_
        rintro u rfl
        rcases hv with hv | ⟨us, hv⟩
        · cases hv
          rfl
        · cases hv
      · exact absurd rfl hne
      · exact Table.opens_put_tables hus
  | cons s key => exact Table.opens_update? (.inl htable) hroot

/-- What stands at a key that has just been written. -/
theorem hasAt_of_eq {context : Key} {root t : Table} {n s k : Text} {v : Value}
    (hkey : [s, k] = context ++ [n]) (hv : v.isTable = true)
    (hroot : t.update? (fun u => some (u.put n v)) context = some root) :
    root.HasAt s k (·.isTable = true) := by
  have hsplit : [s] ++ [k] = context ++ [n] := hkey
  obtain ⟨rfl, hk⟩ := List.append_inj' hsplit rfl
  cases hk
  obtain ⟨w, hs, hw⟩ := Table.hasAt_update? hroot
  refine ⟨w, hs, ?_⟩
  intro u hu
  obtain ⟨v', hfind, rfl⟩ := hw u hu
  exact ⟨v', hfind, hv⟩

theorem openWay? {d' : Document} {key context : Key} (h : Reflects hole d l)
    (hway : d.openWay? context key = some d') : Reflects hole d' l := by
  refine openWay?_induction (P := fun d => Reflects hole d l) ?_ h hway
  intro d context t n root h ht hn hroot
  refine h.opens { d.markImplicit (context ++ [n]) with root }
    (opens_root ht (.inl hn) (.inl rfl) hroot) rfl ?_
  intro s k hmem hne
  by_cases hkey : [s, k] = context ++ [n]
  · exact .inr (hasAt_of_eq hkey rfl hroot)
  · refine .inl ⟨?_, hne⟩
    rcases List.mem_cons.mp hmem with heq | hmem
    · exact absurd heq hkey
    · exact (List.mem_filter.mp hmem).1

theorem mem_unmarkImplicit {key key' : Key} :
    key ∈ (d.unmarkImplicit key').implicit ↔ key ∈ d.implicit ∧ key ≠ key' := by
  simp [unmarkImplicit]

theorem context_ne_nil (h : Reflects hole d l) {context : Key} {name : Text}
    (harray : context ++ [name] ∈ d.arrays) : context ≠ [] := by
  rintro rfl
  exact absurd (h.arrays _ harray) (by simp)

theorem set?_table {d' : Document} {context : Key} {name : Text}
    (h : Reflects (context ++ [name]) d l) (hset : d.set? context name (.table []) = some d') :
    Reflects [] d' l := by
  obtain ⟨t, ht, ⟨root, hroot, ⟨hn, rfl⟩ | ⟨harray, rfl⟩⟩ | ⟨_, rfl⟩⟩ := set?_cases hset
  · refine h.opens { d with root } (opens_root ht (.inl hn) (.inl rfl) hroot) rfl ?_
    intro s k hmem _
    by_cases hkey : [s, k] = context ++ [name]
    · exact .inr (hasAt_of_eq hkey rfl hroot)
    · exact .inl ⟨hmem, hkey⟩
  · have hne := h.context_ne_nil harray
    refine h.opens { d.unmarkImplicit (context ++ [name]) with root }
      (opens_root ht (.inr (.inl hne)) (.inl rfl) hroot) rfl ?_
    intro s k hmem _
    exact .inl (mem_unmarkImplicit.mp hmem)
  · refine h.opens (d.unmarkImplicit (context ++ [name])) (Table.Opens.refl _) rfl ?_
    intro s k hmem _
    exact .inl (mem_unmarkImplicit.mp hmem)

theorem open? {d' : Document} {key : Key} {isElement : Bool} (h : Reflects key d l)
    (hopen : d.open? key isElement = some d') : Reflects [] d' l := by
  obtain ⟨context, name, d₁, rfl, hway, hset | ⟨t, us, root, ht, hname, hroot, rfl⟩⟩ :=
    open?_cases hopen
  · exact (h.openWay? hway).set?_table hset
  · refine (h.openWay? hway).opens { d₁ with root } (opens_root ht ?_ (.inr ⟨us, rfl⟩) hroot) rfl ?_
    · rcases hname with hnone | ⟨us', hus'⟩
      · exact .inl hnone
      · exact .inr (.inr ⟨us', us, hus', rfl⟩)
    · intro s k hmem _
      by_cases hkey : [s, k] = context ++ [name]
      · exact .inr (hasAt_of_eq hkey rfl hroot)
      · exact .inl ⟨hmem, hkey⟩

/-! ## Assignments -/

/-- Only assignments two names deep count. -/
theorem append_iff {m : List (Key × Term)} (hm : ∀ p ∈ m, p.1.length ≠ 2) :
    Reflects hole d (l ++ m) ↔ Reflects hole d l := by
  have hassigned : ∀ s k, assigned? [s, k] (l ++ m) = assigned? [s, k] l := by
    intro s k
    have hnone : m.reverse.lookup [s, k] = none := by
      rw [List.lookup_eq_none_iff]
      intro p hp
      rw [bne_iff_ne]
      rintro hkey
      exact hm p (List.mem_reverse.mp hp) (by rw [← hkey]; rfl)
    rw [assigned?, List.reverse_append, List.lookup_append, hnone, Option.none_or]
    rfl
  have hmem : ∀ s k x, ([s, k], x) ∈ l ++ m ↔ ([s, k], x) ∈ l := by
    intro s k x
    rw [List.mem_append]
    exact or_iff_left fun hp => hm _ hp rfl
  constructor
  · intro h
    refine ⟨?_, fun hp => h.present ((hmem ..).mpr hp), h.arrays, h.implicit⟩
    intro s u k v
    rw [← hassigned]
    exact h.assigned
  · intro h
    refine ⟨?_, fun hp => h.present ((hmem ..).mp hp), h.arrays, h.implicit⟩
    intro s u k v
    rw [hassigned]
    exact h.assigned

/-- A name in a section gets a value, or keeps a table, and all other names keep theirs. -/
theorem assign (h : Reflects [] d l) {d' : Document} {s n : Text} {x : Term}
    (hother : ∀ s', s' ≠ s → d'.root.find? s' = d.root.find? s')
    (hsection : ∀ u', d'.root.find? s = some (.table u') → ∃ u, d.root.find? s = some (.table u) ∧
      ∀ k, k ≠ n → Table.find? u' k = Table.find? u k)
    (hat : d'.root.HasAt s n fun v => v = x.value ∨ v.isTable = true)
    (harrays : d'.arrays = d.arrays)
    (himplicit : ∀ {s' k}, [s', k] ∈ d'.implicit → [s', k] ∈ d.implicit ∧
      ([s', k] = [s, n] → d'.root.HasAt s n (·.isTable = true))) :
    Reflects [] d' (l ++ [([s, n], x)]) := by
  have hkept : ∀ {s' k P}, d.root.HasAt s' k P → [s', k] ≠ [s, n] → d'.root.HasAt s' k P := by
    rintro s' k P ⟨w, hw, hP⟩ hne
    by_cases hs : s' = s
    · subst hs
      obtain ⟨w', hw', _⟩ := hat
      refine ⟨w', hw', ?_⟩
      rintro u' rfl
      obtain ⟨u, hu, hsame⟩ := hsection u' hw'
      rw [hu] at hw
      cases hw
      rw [hsame k (by rintro rfl; exact hne rfl)]
      exact hP u rfl
    · exact ⟨w, by rw [hother s' hs, hw], hP⟩
  refine ⟨?_, ?_, by rw [harrays]; exact h.arrays, ?_⟩
  · intro s' u' k v hs' hk hv
    rw [assigned?_concat]
    by_cases hkey : [s', k] = [s, n]
    · cases hkey
      obtain ⟨w, hw, hvalue⟩ := hat
      rw [hs'] at hw
      cases hw
      obtain ⟨v', hv', hcases⟩ := hvalue u' rfl
      rw [hk] at hv'
      cases hv'
      rcases hcases with rfl | htable
      · exact ⟨x, if_pos rfl, rfl⟩
      · rw [hv] at htable
        cases htable
    · rw [if_neg hkey]
      by_cases hs : s' = s
      · subst hs
        obtain ⟨u, hu, hsame⟩ := hsection u' hs'
        rw [hsame k (by rintro rfl; exact hkey rfl)] at hk
        exact h.assigned hu hk hv
      · exact h.assigned (hother s' hs ▸ hs') hk hv
  · intro s' k y hmem
    by_cases hkey : [s', k] = [s, n]
    · cases hkey
      obtain ⟨w, hw, hvalue⟩ := hat
      exact ⟨w, hw, fun u hu => (hvalue u hu).imp fun _ hv => ⟨hv.1, trivial⟩⟩
    · rcases List.mem_append.mp hmem with hmem | hmem
      · exact hkept (h.present hmem) hkey
      · cases List.mem_singleton.mp hmem
        exact absurd rfl hkey
  · intro s' k hmem _
    obtain ⟨hold, hnew⟩ := himplicit hmem
    by_cases hkey : [s', k] = [s, n]
    · cases hkey
      exact hnew rfl
    · exact hkept (h.implicit hold nofun) hkey

theorem leaf_section {d' : Document} {s n : Text} {x : Term} (h : Reflects [] d l)
    (hset : d.set? [s] n x.value = some d') : Reflects [] d' (l ++ [([s, n], x)]) := by
  obtain ⟨t, ht, ⟨root, hroot, hd'⟩ | ⟨himplicit, rfl⟩⟩ := set?_cases hset
  · have hwritten : root.HasAt s n fun v => v = x.value ∨ v.isTable = true := by
      obtain ⟨w, hw, hvalue⟩ := Table.hasAt_update? hroot
      exact ⟨w, hw, fun u hu => (hvalue u hu).imp fun _ hv => ⟨hv.1, .inl hv.2⟩⟩
    have hother : ∀ s', s' ≠ s → root.find? s' = d.root.find? s' := by
      intro s' hne
      obtain ⟨u, u', _, _, rfl⟩ | ⟨us, us', _, rfl⟩ := Table.update?_cons hroot <;>
        exact Table.find?_put_of_ne _ hne _
    have hsection : ∀ u', root.find? s = some (.table u') → ∃ u,
        d.root.find? s = some (.table u) ∧ ∀ k, k ≠ n → Table.find? u' k = Table.find? u k := by
      intro u' hu'
      obtain ⟨u, v, hs, hv, rfl⟩ | ⟨us, us', _, rfl⟩ := Table.update?_cons hroot
      · rw [Table.find?_put_self] at hu'
        cases hu'
        cases hv
        exact ⟨u, hs, fun k hk => Table.find?_put_of_ne _ hk _⟩
      · rw [Table.find?_put_self] at hu'
        cases hu'
    rcases hd' with ⟨hn, rfl⟩ | ⟨_, rfl⟩
    · refine h.assign hother hsection hwritten rfl ?_
      intro s' k hmem
      refine ⟨hmem, ?_⟩
      rintro ⟨⟩
      -- A name that is marked implicit is there, unless the section is a list of tables.
      obtain ⟨w, hw, hvalue⟩ := h.implicit hmem nofun
      obtain ⟨w', hw', _⟩ := hwritten
      refine ⟨w', hw', ?_⟩
      rintro u' rfl
      obtain ⟨u, hu, _⟩ := hsection u' hw'
      rw [hu] at hw
      cases hw
      obtain ⟨v, hv, _⟩ := hvalue u rfl
      simp only [tableAt?, hu, Option.some.injEq] at ht
      rw [ht, hn] at hv
      cases hv
    · refine h.assign hother hsection hwritten rfl ?_
      intro s' k hmem
      obtain ⟨hold, hne⟩ := mem_unmarkImplicit.mp hmem
      exact ⟨hold, fun hkey => absurd hkey hne⟩
  · refine h.assign (fun _ _ => rfl) (fun u hu => ⟨u, hu, fun _ _ => rfl⟩) ?_ rfl ?_
    · obtain ⟨w, hw, hvalue⟩ := h.implicit himplicit nofun
      exact ⟨w, hw, fun u hu => (hvalue u hu).imp fun _ hv => ⟨hv.1, .inr hv.2⟩⟩
    · intro s' k hmem
      obtain ⟨hold, hne⟩ := mem_unmarkImplicit.mp hmem
      exact ⟨hold, fun hkey => absurd hkey hne⟩

theorem leaf {d' : Document} {context : Key} {name : Text} {x : Term} (h : Reflects [] d l)
    (hkey : 2 ≤ (context ++ [name]).length) (hset : d.set? context name x.value = some d') :
    Reflects [] d' (l ++ [(context ++ [name], x)]) := by
  match context with
  | [] => exact absurd hkey (by simp)
  | [s] => exact h.leaf_section hset
  | s :: s' :: context =>
      rw [append_iff (by simp)]
      obtain ⟨t, _, ⟨root, hroot, hd'⟩ | ⟨_, rfl⟩⟩ := set?_cases hset
      · have hopens : d.root.Opens root :=
          Table.opens_update? (.inr (List.cons_ne_nil s' context)) hroot
        rcases hd' with ⟨_, rfl⟩ | ⟨_, rfl⟩
        · exact h.opens { d with root } hopens rfl fun hmem _ => .inl ⟨hmem, nofun⟩
        · exact h.opens { d.unmarkImplicit _ with root } hopens rfl
            fun hmem _ => .inl ⟨(mem_unmarkImplicit.mp hmem).1, nofun⟩
      · exact h.opens (d.unmarkImplicit _) (Table.Opens.refl _) rfl
          fun hmem _ => .inl ⟨(mem_unmarkImplicit.mp hmem).1, nofun⟩

end Reflects

theorem isInvariant_reflects : IsInvariant (2 ≤ ·.length) (Reflects []) where
  good_append rest hkey := by
    rw [List.length_append]
    exact Nat.le_add_right_of_le hkey
  noteKey _ hd := ⟨hd.assigned, hd.present, hd.arrays, hd.implicit⟩
  noteArray {d l key isArray} hkey hd := by
    refine ⟨hd.assigned, hd.present, ?_, hd.implicit⟩
    intro key' hmem
    simp only [Document.noteArray] at hmem
    split at hmem
    · rcases List.mem_cons.mp hmem with rfl | hmem
      · exact hkey ‹_›
      · exact hd.arrays _ (List.mem_filter.mp hmem).1
    · exact hd.arrays _ (List.mem_filter.mp hmem).1
  heading hd hopen := (hd.weaken _).open? hopen
  below {d d' l key isElement} hd hopen := by
    refine Reflects.open? ?_ hopen
    refine hd.opens (d.markImplicit key) (Table.Opens.refl _) rfl ?_
    intro s k hmem hne
    rcases List.mem_cons.mp hmem with heq | hmem
    · exact absurd heq hne
    · exact .inl ⟨(List.mem_filter.mp hmem).1, nofun⟩
  table hd hset := (hd.weaken _).set?_table hset
  unmarkImplicit key hd := hd.opens (Document.unmarkImplicit _ key) (Table.Opens.refl _) rfl
    fun hmem hne => .inl ⟨(Reflects.mem_unmarkImplicit.mp hmem).1, hne⟩
  leaf _ hkey hd hset := hd.leaf hkey hset
  deep hkey hm hd := (Reflects.append_iff fun p hp => by
    have := hm p hp
    omega).mp hd

/-- A document has for every name in a section what was assigned last, unless a section itself was
assigned something else than a table. -/
theorem reflects_read? {content : Text} {d : Document} (h : Document.read? content = some d)
    (hdeep : ∀ p ∈ assignments content, 2 ≤ p.1.length) : Reflects [] d (assignments content) :=
  isInvariant_reflects.read? ⟨nofun, nofun, nofun, nofun⟩ h hdeep

end Document

end LineReview.Toml
