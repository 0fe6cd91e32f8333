import LineReview.Toml.Document
import Mathlib.Data.List.Basic

/-!
# Assignments of a TOML document

What a document assigns can be read off its statements: a key below a heading is
the key behind the key of the heading, and an inline table is the assignments
between its braces. `leaves` lists the assignments of values that are no tables, in
the order of the document.

A document is read statement by statement into one table, with marks for names that
are implicit and for names that hold arrays. `Document.IsInvariant` says what a
property of the document and the assignments so far has to survive, and
`Document.IsInvariant.read?` that it then holds of every document that was read.
-/

namespace LineReview.Toml

/-! ## What is written -/

def Term.isTable : Term → Bool
  | .table _ => true
  | _ => false

mutual

/-- The value that a term stands for, before the assignments of an inline table are carried out. -/
def Term.value : Term → Value
  | .string t => .string t
  | .integer n => .integer n
  | .float => .float
  | .bool b => .bool b
  | .datetime => .datetime
  | .array items => .array items.values
  | .table _ => .table []

def Terms.values : Terms → List Value
  | .nil => []
  | .cons x rest => x.value :: rest.values

end

mutual

/-- The assignments between the braces of an inline table at a key. -/
def Term.inner (key : Key) : Term → List (Key × Term)
  | .table pairs => pairs.leaves key
  | .string _ | .integer _ | .float | .bool _ | .datetime | .array _ => []

/-- The assignments of an inline table with the given key in front of theirs. -/
def Pairs.leaves (context : Key) : Pairs → List (Key × Term)
  | .nil => []
  | .cons key x rest =>
    (if x.isTable then x.inner (context ++ key) else [(context ++ key, x)]) ++ rest.leaves context

end

/-- What the assignment of a term to a key assigns. -/
def Term.leaves (key : Key) (x : Term) : List (Key × Term) :=
  if x.isTable then x.inner key else [(key, x)]

/-- The assignments of statements below the heading with the given key. -/
def leaves (context : Key) : List Statement → List (Key × Term)
  | [] => []
  | .table key :: rest => leaves key rest
  | .element key :: rest => leaves key rest
  | .assign key x :: rest => x.leaves (context ++ key) ++ leaves context rest

/-- The assignments of a document; none when it is malformed. -/
def assignments (content : Text) : List (Key × Term) := ((read? content).map (leaves [])).getD []

/-- The term that is assigned to a key last. -/
def assigned? (key : Key) (l : List (Key × Term)) : Option Term := l.reverse.lookup key

theorem assigned?_concat (key k : Key) (x : Term) (l : List (Key × Term)) :
    assigned? key (l ++ [(k, x)]) = if key = k then some x else assigned? key l := by
  rw [assigned?, List.reverse_concat, List.lookup_cons]
  by_cases h : key = k
  · simp [h]
  · rw [if_neg h, beq_false_of_ne h]
    rfl

theorem mem_of_assigned? {key : Key} {x : Term} {l : List (Key × Term)}
    (h : assigned? key l = some x) : (key, x) ∈ l := by
  obtain ⟨before, after, heq, _⟩ := List.lookup_eq_some_iff.mp h
  rw [← List.mem_reverse, heq]
  exact List.mem_append_right _ (List.mem_cons_self ..)

theorem Term.eq_table_of_isTable {x : Term} (hx : x.isTable = true) :
    ∃ pairs, x = .table pairs := by
  cases x with
  | table pairs => exact ⟨pairs, rfl⟩
  | _ => cases hx

theorem Term.inner_of_not_isTable {x : Term} (hx : x.isTable = false) (key : Key) :
    x.inner key = [] := by
  cases x with
  | table pairs => cases hx
  | _ => rw [Term.inner]

theorem Term.leaves_of_not_isTable {x : Term} (hx : x.isTable = false) (key : Key) :
    x.leaves key = [(key, x)] := by rw [Term.leaves, hx]; rfl

theorem Pairs.leaves_cons (context key : Key) (x : Term) (rest : Pairs) :
    (Pairs.cons key x rest).leaves context = x.leaves (context ++ key) ++ rest.leaves context := by
  rw [Pairs.leaves, Term.leaves]

mutual

theorem Term.exists_append_of_mem_inner {key : Key} {p : Key × Term} :
    ∀ {x : Term}, p ∈ x.inner key → ∃ rest, p.1 = key ++ rest
  | .table pairs, hp => by
      rw [Term.inner] at hp
      exact Pairs.exists_append_of_mem hp
  | .string _, hp | .integer _, hp | .float, hp | .bool _, hp | .datetime, hp | .array _, hp =>
      nomatch hp

theorem Pairs.exists_append_of_mem {context : Key} {p : Key × Term} :
    ∀ {pairs : Pairs}, p ∈ pairs.leaves context → ∃ rest, p.1 = context ++ rest
  | .nil, hp => nomatch hp
  | .cons key x rest, hp => by
      rw [Pairs.leaves, List.mem_append] at hp
      rcases hp with hp | hp
      · split at hp
        · obtain ⟨tail, htail⟩ := Term.exists_append_of_mem_inner hp
          exact ⟨key ++ tail, by rw [htail, List.append_assoc]⟩
        · cases List.mem_singleton.mp hp
          exact ⟨key, rfl⟩
      · exact Pairs.exists_append_of_mem hp

end

/-! ## Reading a document -/

namespace Document

/-- A statement settles below which heading the next ones stand. -/
theorem leaves_cons_of_step? {d d' : Document} {context context' : Key} {st : Statement}
    (hstep : d.step? context st = some (d', context')) (rest : List Statement) :
    leaves context (st :: rest) = leaves context [st] ++ leaves context' rest := by
  cases st with
  | table key | element key | assign key x =>
      obtain ⟨d₁, _, heq⟩ := Option.bind_eq_some_iff.mp hstep
      cases heq
      simp only [leaves, List.nil_append, List.append_nil]

theorem assign?_of_not_isTable {x : Term} (hx : x.isTable = false) (d : Document) (context : Key)
    (name : Text) : d.assign? context name x.value = d.set? context name x.value := by
  cases x with
  | table pairs => cases hx
  | _ => rw [Term.value, assign?]; nofun

/-- A property of a document that is being read and of the assignments so far. It survives every
step of reading, as long as values that are no tables are only assigned to good keys. -/
structure IsInvariant (Good : Key → Prop) (P : Document → List (Key × Term) → Prop) : Prop where
  good_append : ∀ {key : Key} (rest : Key), Good key → Good (key ++ rest)
  noteKey : ∀ {d l} (key : Key), P d l → P (d.noteKey key) l
  noteArray : ∀ {d l} {key : Key} {isArray : Bool}, (isArray = true → Good key) → P d l →
    P (d.noteArray key isArray) l
  heading : ∀ {d d' l} {key : Key} {isElement : Bool}, P d l → d.open? key isElement = some d' →
    P d' l
  /-- The name of an inline table, or one on the way to a dotted key. -/
  below : ∀ {d d' l} {key : Key} {isElement : Bool}, P d l →
    (d.markImplicit key).open? key isElement = some d' → P d' l
  table : ∀ {d d' l} {context : Key} {name : Text}, P d l →
    d.set? context name (.table []) = some d' → P d' l
  unmarkImplicit : ∀ {d l} (key : Key), P d l → P (d.unmarkImplicit key) l
  leaf : ∀ {d d' l} {context : Key} {name : Text} {x : Term}, x.isTable = false →
    Good (context ++ [name]) → P d l → d.set? context name x.value = some d' →
    P d' (l ++ [(context ++ [name], x)])
  /-- Assignments below a good key do not count: they are those of tables in an array. -/
  deep : ∀ {d l m} {key : Key}, Good key → (∀ p ∈ m, key.length < p.1.length) → P d (l ++ m) →
    P d l

namespace IsInvariant

variable {Good : Key → Prop} {P : Document → List (Key × Term) → Prop} (h : IsInvariant Good P)
include h

theorem good_leaves {key : Key} (hkey : Good key) {x : Term} : ∀ p ∈ x.leaves key, Good p.1 := by
  intro p hp
  rw [Term.leaves] at hp
  split at hp
  · obtain ⟨rest, hrest⟩ := Term.exists_append_of_mem_inner hp
    rw [hrest]
    exact h.good_append rest hkey
  · cases List.mem_singleton.mp hp
    exact hkey

/-- The value of an assignment is set, after the assignments in it. -/
theorem assign? {d d' : Document} {context : Key} {name : Text} {x : Term} {l : List (Key × Term)}
    (hd : P d (l ++ x.inner (context ++ [name])))
    (hgood : ∀ p ∈ x.leaves (context ++ [name]), Good p.1)
    (hassign : d.assign? context name x.value = some d') :
    P d' (l ++ x.leaves (context ++ [name])) := by
  cases hx : x.isTable with
  | true =>
      obtain ⟨pairs, rfl⟩ := Term.eq_table_of_isTable hx
      rw [Term.value, Document.assign?] at hassign
      split at hassign
      · cases hassign
        exact h.unmarkImplicit _ hd
      · exact h.table hd hassign
  | false =>
      rw [Term.inner_of_not_isTable hx, List.append_nil] at hd
      rw [Term.leaves_of_not_isTable hx] at hgood ⊢
      rw [assign?_of_not_isTable hx] at hassign
      exact h.leaf hx (hgood _ (List.mem_singleton_self _)) hd hassign

/-- Only a value that is no table can be an array. -/
theorem noteArray_value {d : Document} {key : Key} {x : Term} {isArray : Bool}
    {l : List (Key × Term)} (hd : P d l) (hgood : ∀ p ∈ x.leaves key, Good p.1)
    (harray : isArray = true → ∃ vs, x.value = .array vs) : P (d.noteArray key isArray) l := by
  refine h.noteArray ?_ hd
  intro hisArray
  obtain ⟨vs, hvs⟩ := harray hisArray
  cases hx : x.isTable with
  | true =>
      obtain ⟨pairs, rfl⟩ := Term.eq_table_of_isTable hx
      rw [Term.value] at hvs
      cases hvs
  | false =>
      rw [Term.leaves_of_not_isTable hx] at hgood
      exact hgood _ (List.mem_singleton_self _)

theorem openDotted? {names : List Text} : ∀ {d d' : Document} {context : Key}
    {l : List (Key × Term)}, P d l → d.openDotted? context names = some d' → P d' l := by
  induction names with
  | nil =>
      intro d d' context l hd hopen
      cases hopen
      exact hd
  | cons n names ih =>
      intro d d' context l hd hopen
      obtain ⟨d₁, hfirst, hrest⟩ := Option.bind_eq_some_iff.mp hopen
      exact ih (h.below hd hfirst) hrest

mutual

theorem value? : ∀ (x : Term) {d d' : Document} {context : Key} {name : Text} {isItem : Bool}
    {v : Value} {l : List (Key × Term)}, P d l → (∀ p ∈ x.leaves (context ++ [name]), Good p.1) →
    d.value? context name isItem x = some (d', v) →
    P d' (l ++ x.inner (context ++ [name])) ∧ v = x.value ∧
      ∀ p ∈ x.inner (context ++ [name]), (context ++ [name]).length < p.1.length
  | .array items, d, d', context, name, isItem, v, l, hd, hgood, hvalue => by
      have hkey : Good (context ++ [name]) := hgood (_, .array items) (List.mem_singleton_self _)
      rw [Document.value?] at hvalue
      obtain ⟨⟨d₁, vs⟩, hitems, heq⟩ := Option.map_eq_some_iff.mp hvalue
      cases heq
      obtain ⟨hd₁, hvs⟩ := items? items (h.noteArray (fun _ => hkey) hd) hkey hitems
      rw [Term.inner, List.append_nil, Term.value, hvs]
      exact ⟨hd₁, rfl, nofun⟩
  | .table pairs, d, d', context, name, isItem, v, l, hd, hgood, hvalue => by
      rw [Document.value?] at hvalue
      split at hvalue
      case h_1 => cases hvalue
      case h_2 d₁ hopen =>
        obtain ⟨d₂, hassign, heq⟩ := Option.map_eq_some_iff.mp hvalue
        cases heq
        obtain ⟨hd₂, hlonger⟩ := assignAll? pairs (h.below hd hopen) hgood hassign
        rw [Term.inner, Term.value]
        exact ⟨hd₂, rfl, hlonger⟩
  | .string t, d, d', context, name, isItem, v, l, hd, hgood, hvalue
  | .integer n, d, d', context, name, isItem, v, l, hd, hgood, hvalue
  | .float, d, d', context, name, isItem, v, l, hd, hgood, hvalue
  | .bool b, d, d', context, name, isItem, v, l, hd, hgood, hvalue
  | .datetime, d, d', context, name, isItem, v, l, hd, hgood, hvalue => by
      rw [Document.value?] at hvalue
      cases hvalue
      rw [Term.inner, List.append_nil, Term.value]
      exact ⟨hd, rfl, nofun⟩

theorem items? : ∀ (xs : Terms) {d d' : Document} {context : Key} {name : Text}
    {vs : List Value} {l : List (Key × Term)}, P d l → Good (context ++ [name]) →
    d.items? context name xs = some (d', vs) → P d' l ∧ vs = xs.values
  | .nil, d, d', context, name, vs, l, hd, _, hitems => by
      rw [Document.items?] at hitems
      cases hitems
      exact ⟨hd, rfl⟩
  | .cons x rest, d, d', context, name, vs, l, hd, hkey, hitems => by
      rw [Document.items?] at hitems
      split at hitems
      case h_1 => cases hitems
      case h_2 d₁ v hvalue =>
        obtain ⟨hd₁, hv, hlonger⟩ := value? x hd (h.good_leaves hkey) hvalue
        obtain ⟨⟨d₂, ws⟩, hrest, heq⟩ := Option.map_eq_some_iff.mp hitems
        cases heq
        obtain ⟨hd₂, hws⟩ := items? rest (h.deep hkey hlonger hd₁) hkey hrest
        exact ⟨hd₂, by rw [Terms.values, hv, hws]⟩

theorem assignAll? : ∀ (pairs : Pairs) {d d' : Document} {context : Key} {l : List (Key × Term)},
    P d l → (∀ p ∈ pairs.leaves context, Good p.1) → d.assignAll? context pairs = some d' →
    P d' (l ++ pairs.leaves context) ∧ ∀ p ∈ pairs.leaves context, context.length < p.1.length
  | .nil, d, d', context, l, hd, _, hassign => by
      rw [Document.assignAll?] at hassign
      cases hassign
      rw [Pairs.leaves, List.append_nil]
      exact ⟨hd, nofun⟩
  | .cons key x rest, d, d', context, l, hd, hgood, hassign => by
      rw [Document.assignAll?] at hassign
      split at hassign
      case h_2 => cases hassign
      case h_1 name d₁ hname hway =>
        dsimp only at hassign
        split at hassign
        case h_1 => cases hassign
        case h_2 d₂ v hvalue =>
          split at hassign
          case h_1 => cases hassign
          case h_2 d₃ hset =>
            have hkey : context ++ key = (context ++ key.dropLast) ++ [name] := by
              rw [List.append_assoc, List.dropLast_append_getLast? name hname]
            rw [Pairs.leaves_cons, hkey] at hgood ⊢
            have hgood_x := fun p hp => hgood p (List.mem_append_left _ hp)
            have hgood_rest := fun p hp => hgood p (List.mem_append_right _ hp)
            obtain ⟨hd₂, rfl, hlonger⟩ :=
              value? x (h.noteKey _ (h.openDotted? hd hway)) hgood_x hvalue
            obtain ⟨hd₄, hlonger_rest⟩ :=
              assignAll? rest (h.noteArray_value (h.assign? hd₂ hgood_x hset) hgood_x
                (by intro hisArray; split at hisArray; exacts [⟨_, ‹_›⟩, nomatch hisArray]))
                hgood_rest hassign
            rw [List.append_assoc] at hd₄
            refine ⟨hd₄, ?_⟩
            intro p hp
            rcases List.mem_append.mp hp with hp | hp
            · rw [Term.leaves] at hp
              split at hp
              · have := hlonger p hp
                simp only [List.length_append, List.length_singleton] at this
                omega
              · cases List.mem_singleton.mp hp
                simp only [List.length_append, List.length_singleton]
                omega
            · exact hlonger_rest p hp

end

theorem step? {d d' : Document} {context context' : Key} {st : Statement}
    {l : List (Key × Term)} (hd : P d l) (hgood : ∀ p ∈ leaves context [st], Good p.1)
    (hstep : d.step? context st = some (d', context')) : P d' (l ++ leaves context [st]) := by
  cases st with
  | table key =>
      obtain ⟨d₁, hopen, heq⟩ := Option.bind_eq_some_iff.mp hstep
      cases heq
      rw [leaves, leaves, List.append_nil]
      exact h.noteKey _ (h.noteArray nofun (h.heading hd hopen))
  | element key =>
      obtain ⟨d₁, hopen, heq⟩ := Option.bind_eq_some_iff.mp hstep
      cases heq
      rw [leaves, leaves, List.append_nil]
      exact h.noteKey _ (h.noteArray nofun (h.heading hd hopen))
  | assign key x =>
      obtain ⟨d₁, hassign, heq⟩ := Option.bind_eq_some_iff.mp hstep
      cases heq
      have hleaves : leaves context [.assign key x] = (Pairs.cons key x .nil).leaves context := by
        rw [Pairs.leaves_cons, leaves, leaves, Pairs.leaves]
      rw [hleaves] at hgood ⊢
      exact (h.assignAll? _ hd hgood hassign).1

/-- What survives every step holds at the end, of all assignments. -/
theorem run? {ss : List Statement} : ∀ {d d' : Document} {context : Key} {l : List (Key × Term)},
    P d l → (∀ p ∈ leaves context ss, Good p.1) → d.run? context ss = some d' →
    P d' (l ++ leaves context ss) := by
  induction ss with
  | nil =>
      intro d d' context l hd _ hrun
      cases hrun
      rwa [leaves, List.append_nil]
  | cons st rest ih =>
      intro d d' context l hd hgood hrun
      obtain ⟨⟨d₁, context'⟩, hstep, hrest⟩ := Option.bind_eq_some_iff.mp hrun
      rw [leaves_cons_of_step? hstep] at hgood ⊢
      have hd₁ := h.step? hd (fun p hp => hgood p (List.mem_append_left _ hp)) hstep
      have hd' := ih hd₁ (fun p hp => hgood p (List.mem_append_right _ hp)) hrest
      rwa [List.append_assoc] at hd'

theorem read? {content : Text} {d : Document} (hnew : P {} [])
    (hread : Document.read? content = some d) (hgood : ∀ p ∈ assignments content, Good p.1) :
    P d (assignments content) := by
  obtain ⟨ss, hss, hrun⟩ := Option.bind_eq_some_iff.mp hread
  rw [assignments, hss] at hgood ⊢
  exact h.run? hnew hgood hrun

end IsInvariant

end Document

end LineReview.Toml
