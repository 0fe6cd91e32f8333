import LineReview.Proofs.Toml.Assignments
import Mathlib.Data.List.Nodup

/-!
# Sections of a TOML document

A section is a table with a heading or with names below it. This module is about what a
document has for a name in a section, two names deep: what the operations on a document
change there, and that the names of a table and of its sections are distinct in every
document that was read.
-/

namespace LineReview.Toml

def Value.isTable : Value → Bool
  | .table _ => true
  | .tables _ => true
  | _ => false

namespace Table

/-! ## Names -/

theorem find?_cons (n m : Text) (v : Value) (t : Table) :
    find? ((n, v) :: t) m = if m = n then some v else t.find? m := by
  rw [find?, List.lookup_cons]
  by_cases h : m = n
  · simp [h]
  · rw [if_neg h, beq_false_of_ne h]
    rfl

theorem find?_put (t : Table) (n m : Text) (v : Value) :
    (t.put n v).find? m = if m = n then some v else t.find? m := by
  induction t with
  | nil => rw [put, find?_cons]
  | cons e r ih =>
      obtain ⟨n', w⟩ := e
      rw [put]
      split
      case isTrue h =>
        subst h
        rw [find?_cons, find?_cons]
        split <;> rfl
      case isFalse h =>
        rw [find?_cons, find?_cons, ih]
        split
        case isTrue hm => rw [if_neg (hm ▸ h)]
        case isFalse => rfl

@[simp] theorem find?_put_self (t : Table) (n : Text) (v : Value) :
    (t.put n v).find? n = some v := by
  rw [find?_put, if_pos rfl]

theorem find?_put_of_ne (t : Table) {n m : Text} (h : m ≠ n) (v : Value) :
    (t.put n v).find? m = t.find? m := by
  rw [find?_put, if_neg h]

/-- No name occurs twice. -/
def IsMap (t : Table) : Prop := (t.map Prod.fst).Nodup

theorem IsMap.put {t : Table} (h : t.IsMap) (n : Text) (v : Value) : (t.put n v).IsMap := by
  have hnames : ∀ r : Table, (r.put n v).map Prod.fst =
      if n ∈ r.map Prod.fst then r.map Prod.fst else r.map Prod.fst ++ [n] := by
    intro r
    induction r with
    | nil => rfl
    | cons e r ih =>
        obtain ⟨n', w⟩ := e
        simp only [Table.put]
        by_cases hn : n' = n
        · simp [hn]
        · rw [if_neg hn, List.map_cons, List.map_cons, ih]
          by_cases hmem : n ∈ r.map Prod.fst
          · rw [if_pos hmem, if_pos (List.mem_cons_of_mem _ hmem)]
          · rw [if_neg hmem, if_neg (by simpa [Ne.symm hn] using hmem), List.cons_append]
  rw [IsMap, hnames]
  split
  · exact h
  · exact List.Nodup.append h (List.nodup_singleton n) (List.disjoint_singleton.mpr ‹_›)

theorem IsMap.find?_of_mem {t : Table} (h : t.IsMap) {n : Text} {v : Value} (hmem : (n, v) ∈ t) :
    t.find? n = some v := by
  obtain ⟨before, after, rfl⟩ := List.append_of_mem hmem
  rw [find?, List.lookup_eq_some_iff]
  refine ⟨before, after, rfl, ?_⟩
  intro p hp
  rw [bne_iff_ne]
  intro hname
  rw [IsMap, List.map_append, List.map_cons] at h
  exact (List.nodup_append.mp h).2.2 p.1 (List.mem_map_of_mem hp) n (by simp) hname.symm

theorem mem_of_find? {t : Table} {n : Text} {v : Value} (h : t.find? n = some v) : (n, v) ∈ t := by
  obtain ⟨before, after, rfl, _⟩ := List.lookup_eq_some_iff.mp h
  exact List.mem_append_right _ (List.mem_cons_self ..)

theorem get?_pair {t : Table} {s k : Text} {v : Value} :
    t.get? [s, k] = some v ↔ ∃ u, t.find? s = some (.table u) ∧ find? u k = some v := by
  have hlast : ∀ u : Table, u.get? [k] = u.find? k := by
    intro u
    rw [get?]
    split
    case h_1 w hw => rw [hw, get?]
    case h_2 w _ hw => rw [hw, if_pos (by rfl)]
    case h_3 hw => rw [hw]
  rw [get?]
  split
  case h_1 u hu => simp [hu, hlast]
  case h_2 w hw hs =>
    rw [if_neg (by simp), hs]
    refine iff_of_false nofun ?_
    rintro ⟨u, hu, _⟩
    exact hw u (Option.some.inj hu)
  case h_3 hs => simp [hs]

/-! ## Changes at a key -/

theorem update?_cons {f : Table → Option Table} {n : Text} {key : Key} {t t' : Table}
    (h : t.update? f (n :: key) = some t') :
    (∃ u u', t.find? n = some (.table u) ∧ update? f key u = some u' ∧
      t' = t.put n (.table u')) ∨
    ∃ us us', t.find? n = some (.tables us) ∧ t' = t.put n (.tables us') := by
  rw [update?] at h
  split at h
  case h_1 u hu =>
    obtain ⟨u', hu', rfl⟩ := Option.map_eq_some_iff.mp h
    exact .inl ⟨u, u', hu, hu', rfl⟩
  case h_2 us hus =>
    split at h
    · obtain ⟨u', _, rfl⟩ := Option.map_eq_some_iff.mp h
      exact .inr ⟨us, _, hus, rfl⟩
    · cases h
  case h_3 => cases h

/-- A table keeps its names apart from one, which is new or a table as before. -/
theorem update?_put {n : Text} {v : Value} {key : Key} {t t' : Table}
    (h : t.update? (fun u => some (u.put n v)) key = some t') :
    ∃ m w, t' = t.put m w ∧ (key = [] ∧ m = n ∧ w = v ∨ key ≠ [] ∧ w.isTable = true) := by
  cases key with
  | nil =>
      cases h
      exact ⟨n, v, rfl, .inl ⟨rfl, rfl, rfl⟩⟩
  | cons s key =>
      obtain ⟨u, u', _, _, rfl⟩ | ⟨us, us', _, rfl⟩ := update?_cons h
      · exact ⟨s, _, rfl, .inr ⟨nofun, rfl⟩⟩
      · exact ⟨s, _, rfl, .inr ⟨nofun, rfl⟩⟩

/-- The names of a table and of its sections are distinct. -/
structure IsMaps (t : Table) : Prop where
  isMap : t.IsMap
  sections : ∀ {s u}, t.find? s = some (.table u) → IsMap u

theorem IsMaps.put {t : Table} (h : t.IsMaps) (n : Text) {v : Value}
    (hv : ∀ u, v = .table u → IsMap u) : (t.put n v).IsMaps where
  isMap := h.isMap.put n v
  sections {s u} hs := by
    rw [find?_put] at hs
    split at hs
    · exact hv u (Option.some.inj hs)
    · exact h.sections hs

theorem IsMaps.update? {t t' : Table} (h : t.IsMaps) {n : Text} {v : Value} {key : Key}
    (hv : ∀ u, v = .table u → IsMap u)
    (hup : t.update? (fun u => some (u.put n v)) key = some t') : t'.IsMaps := by
  cases key with
  | nil =>
      cases hup
      exact h.put n hv
  | cons s key =>
      obtain ⟨u, u', hs, hu', rfl⟩ | ⟨us, us', _, rfl⟩ := update?_cons hup
      · obtain ⟨m, w, rfl, _⟩ := update?_put hu'
        refine h.put s ?_
        rintro _ ⟨⟩
        exact (h.sections hs).put m w
      · exact h.put s nofun

end Table

namespace Document

/-! ## Operations -/

/-- A value is written, or a table that was implicit is taken as it is. -/
theorem set?_cases {d d' : Document} {context : Key} {name : Text} {v : Value}
    (h : d.set? context name v = some d') :
    ∃ t, tableAt? context d.root = some t ∧
      ((∃ root, d.root.update? (fun u => some (u.put name v)) context = some root ∧
          (t.find? name = none ∧ d' = { d with root } ∨
            context ++ [name] ∈ d.arrays ∧
              d' = { d.unmarkImplicit (context ++ [name]) with root })) ∨
        (context ++ [name] ∈ d.implicit ∧ d' = d.unmarkImplicit (context ++ [name]))) := by
  obtain ⟨t, ht, hrest⟩ := Option.bind_eq_some_iff.mp h
  refine ⟨t, ht, ?_⟩
  dsimp only at hrest
  split at hrest
  case isTrue hnone =>
    obtain ⟨root, hroot, heq⟩ := Option.bind_eq_some_iff.mp hrest
    cases heq
    exact .inl ⟨root, hroot, .inl ⟨Option.isNone_iff_eq_none.mp hnone, rfl⟩⟩
  case isFalse =>
    split at hrest
    case isTrue harray =>
      obtain ⟨root, hroot, heq⟩ := Option.bind_eq_some_iff.mp hrest
      cases heq
      exact .inl ⟨root, hroot, .inr ⟨List.contains_iff_mem.mp harray, rfl⟩⟩
    case isFalse =>
      split at hrest
      case isTrue himplicit =>
        cases hrest
        exact .inr ⟨List.contains_iff_mem.mp himplicit, rfl⟩
      case isFalse => cases hrest

/-- The way to a key is opened, and then a table or one more table of a list. -/
theorem open?_cases {d d' : Document} {key : Key} {isElement : Bool}
    (h : d.open? key isElement = some d') :
    ∃ context name d₁, key = context ++ [name] ∧ d.openWay? [] key = some d₁ ∧
      (d₁.set? context name (.table []) = some d' ∨
        ∃ t us root, tableAt? context d₁.root = some t ∧
          (t.find? name = none ∨ ∃ us, t.find? name = some (.tables us)) ∧
          d₁.root.update? (fun u => some (u.put name (.tables us))) context = some root ∧
          d' = { d₁ with root }) := by
  obtain ⟨d₁, hway, h⟩ := Option.bind_eq_some_iff.mp h
  obtain ⟨name, hname, h⟩ := Option.bind_eq_some_iff.mp h
  refine ⟨key.dropLast, name, d₁, (List.dropLast_append_getLast? name hname).symm, hway, ?_⟩
  split at h
  case isFalse => exact .inl h
  case isTrue =>
    obtain ⟨t, ht, h⟩ := Option.bind_eq_some_iff.mp h
    dsimp only at h
    split at h
    case h_1 hnone =>
      obtain ⟨_, ⟨⟩, h⟩ := Option.bind_eq_some_iff.mp h
      obtain ⟨root, hroot, heq⟩ := Option.bind_eq_some_iff.mp h
      cases heq
      exact .inr ⟨t, _, root, ht, .inl hnone, hroot, rfl⟩
    case h_2 us hsome =>
      obtain ⟨_, ⟨⟩, h⟩ := Option.bind_eq_some_iff.mp h
      obtain ⟨root, hroot, heq⟩ := Option.bind_eq_some_iff.mp h
      cases heq
      exact .inr ⟨t, _, root, ht, .inr ⟨us, hsome⟩, hroot, rfl⟩
    case h_3 => cases h

/-- What the names on the way to a key keep, when it survives a new implicit table. -/
theorem openWay?_induction {P : Document → Prop}
    (hnew : ∀ {d : Document} {context : Key} {t : Table} {n : Text} {root : Table}, P d →
      tableAt? context d.root = some t → t.find? n = none →
      d.root.update? (fun u => some (u.put n (.table []))) context = some root →
      P { d.markImplicit (context ++ [n]) with root }) :
    ∀ {key context : Key} {d d' : Document}, P d → d.openWay? context key = some d' → P d'
  | [], _, _, _, hd, h | [_], _, _, _, hd, h => by
      cases h
      exact hd
  | n :: m :: key, context, d, d', hd, h => by
      obtain ⟨t, ht, h⟩ := Option.bind_eq_some_iff.mp h
      dsimp only at h
      split at h
      case h_1 hnone =>
        obtain ⟨root, hroot, h⟩ := Option.bind_eq_some_iff.mp h
        exact openWay?_induction hnew (hnew hd ht hnone hroot) h
      case h_2 | h_3 => exact openWay?_induction hnew hd h
      case h_4 => cases h

/-! ## Names are distinct -/

theorem isMaps_set? {d d' : Document} (h : d.root.IsMaps) {context : Key} {name : Text} {v : Value}
    (hv : ∀ u, v = .table u → Table.IsMap u) (hset : d.set? context name v = some d') :
    d'.root.IsMaps := by
  obtain ⟨t, _, ⟨root, hroot, ⟨_, rfl⟩ | ⟨_, rfl⟩⟩ | ⟨_, rfl⟩⟩ := set?_cases hset
  · exact h.update? hv hroot
  · exact h.update? hv hroot
  · exact h

theorem isMaps_open? {d d' : Document} (h : d.root.IsMaps) {key : Key} {isElement : Bool}
    (hopen : d.open? key isElement = some d') : d'.root.IsMaps := by
  have hempty : ∀ u, Value.table [] = .table u → Table.IsMap u := by
    rintro _ ⟨⟩
    exact List.nodup_nil
  obtain ⟨context, name, d₁, _, hway, hset | ⟨t, us, root, _, _, hroot, rfl⟩⟩ := open?_cases hopen
  all_goals
    have hd₁ : d₁.root.IsMaps :=
      openWay?_induction (P := fun d => d.root.IsMaps)
        (fun hd _ _ hroot => Table.IsMaps.update? hd hempty hroot) h hway
  · exact isMaps_set? hd₁ hempty hset
  · exact hd₁.update? (v := .tables us) nofun hroot

theorem isInvariant_isMaps : IsInvariant (fun _ => True) fun d _ => d.root.IsMaps where
  good_append _ _ := trivial
  noteKey _ hd := hd
  noteArray _ hd := hd
  heading hd hopen := isMaps_open? hd hopen
  below {d d' l key isElement} hd hopen := isMaps_open? (d := d.markImplicit key) hd hopen
  table hd hset := isMaps_set? hd (by rintro _ ⟨⟩; exact List.nodup_nil) hset
  unmarkImplicit _ hd := hd
  leaf {d d' l context name x} hx _ hd hset := by
    refine isMaps_set? hd ?_ hset
    intro u hu
    cases x with
    | table pairs => cases hx
    | _ => rw [Term.value] at hu; cases hu
  deep _ _ hd := hd

theorem isMaps_read? {content : Text} {d : Document} (h : Document.read? content = some d) :
    d.root.IsMaps :=
  isInvariant_isMaps.read? ⟨List.nodup_nil, nofun⟩ h fun _ _ => trivial

end Document

end LineReview.Toml
