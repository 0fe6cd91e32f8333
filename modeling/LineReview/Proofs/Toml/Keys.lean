import LineReview.Proofs.Toml.Sections

/-!
# Keys of a TOML document

The list of keys that a document keeps holds every heading and every key that is
assigned, in the order in which they are written. In particular it has the key of every
assignment of a value that is no table.
-/

namespace LineReview.Toml

/-! ## Keys as they are written -/

mutual

/-- The keys of the inline tables in a term that stands at a key. -/
def Term.keys (key : Key) : Term → List Key
  | .array items => items.keys key
  | .table pairs => pairs.keys key
  | .string _ | .integer _ | .float | .bool _ | .datetime => []

def Terms.keys (key : Key) : Terms → List Key
  | .nil => []
  | .cons x rest => x.keys key ++ rest.keys key

def Pairs.keys (context : Key) : Pairs → List Key
  | .nil => []
  | .cons key x rest => (context ++ key) :: x.keys (context ++ key) ++ rest.keys context

end

/-- The keys of statements below the heading with the given key. -/
def keys (context : Key) : List Statement → List Key
  | [] => []
  | .table key :: rest => key :: keys key rest
  | .element key :: rest => key :: keys key rest
  | .assign key x :: rest => (Pairs.cons key x .nil).keys context ++ keys context rest

mutual

theorem Term.mem_keys_of_mem_inner {key : Key} {p : Key × Term} :
    ∀ {x : Term}, p ∈ x.inner key → p.1 ∈ x.keys key
  | .table pairs, hp => by
      rw [Term.inner] at hp
      rw [Term.keys]
      exact Pairs.mem_keys_of_mem_leaves hp
  | .string _, hp | .integer _, hp | .float, hp | .bool _, hp | .datetime, hp | .array _, hp =>
      nomatch hp

theorem Pairs.mem_keys_of_mem_leaves {context : Key} {p : Key × Term} :
    ∀ {pairs : Pairs}, p ∈ pairs.leaves context → p.1 ∈ pairs.keys context
  | .nil, hp => nomatch hp
  | .cons key x rest, hp => by
      rw [Pairs.leaves, List.mem_append] at hp
      rw [Pairs.keys, List.mem_append, List.mem_cons]
      rcases hp with hp | hp
      · split at hp
        · exact .inl (.inr (Term.mem_keys_of_mem_inner hp))
        · cases List.mem_singleton.mp hp
          exact .inl (.inl rfl)
      · exact .inr (Pairs.mem_keys_of_mem_leaves hp)

end

theorem mem_keys_of_mem_leaves {p : Key × Term} {ss : List Statement} :
    ∀ {context : Key}, p ∈ leaves context ss → p.1 ∈ keys context ss := by
  induction ss with
  | nil => exact nofun
  | cons st rest ih =>
      intro context hp
      cases st with
      | table key => exact List.mem_cons_of_mem _ (ih hp)
      | element key => exact List.mem_cons_of_mem _ (ih hp)
      | assign key x =>
          rw [leaves, List.mem_append] at hp
          rw [keys, List.mem_append]
          refine hp.imp (fun hp => Pairs.mem_keys_of_mem_leaves ?_) ih
          rwa [Pairs.leaves_cons, Pairs.leaves, List.append_nil]

/-! ## Keys as they are kept -/

namespace Document

theorem keys_set? {d d' : Document} {context : Key} {name : Text} {v : Value}
    (h : d.set? context name v = some d') : d'.keys = d.keys := by
  obtain ⟨t, _, ⟨root, _, ⟨_, rfl⟩ | ⟨_, rfl⟩⟩ | ⟨_, rfl⟩⟩ := set?_cases h <;> rfl

theorem keys_assign? {d d' : Document} {context : Key} {name : Text} {v : Value}
    (h : d.assign? context name v = some d') : d'.keys = d.keys := by
  unfold assign? at h
  split at h
  case h_1 =>
    dsimp only at h
    split at h
    · cases h
      rfl
    · exact keys_set? h
  case h_2 => exact keys_set? h

theorem keys_open? {d d' : Document} {key : Key} {isElement : Bool}
    (h : d.open? key isElement = some d') : d'.keys = d.keys := by
  obtain ⟨context, name, d₁, _, hway, hset | ⟨t, us, root, _, _, _, rfl⟩⟩ := open?_cases h
  all_goals
    have hkeys : d₁.keys = d.keys :=
      openWay?_induction (P := fun e => e.keys = d.keys) (fun he _ _ _ => he) rfl hway
  · rw [keys_set? hset, hkeys]
  · exact hkeys

theorem keys_openDotted? {names : List Text} : ∀ {d d' : Document} {context : Key},
    d.openDotted? context names = some d' → d'.keys = d.keys := by
  induction names with
  | nil =>
      intro d d' context h
      cases h
      rfl
  | cons n names ih =>
      intro d d' context h
      obtain ⟨d₁, hfirst, hrest⟩ := Option.bind_eq_some_iff.mp h
      rw [ih hrest, keys_open? hfirst]
      rfl

mutual

theorem keys_value? : ∀ (x : Term) {d d' : Document} {context : Key} {name : Text} {isItem : Bool}
    {v : Value}, d.value? context name isItem x = some (d', v) →
    d'.keys = d.keys ++ x.keys (context ++ [name])
  | .array items, d, d', context, name, isItem, v, h => by
      rw [Document.value?] at h
      obtain ⟨⟨d₁, vs⟩, hitems, heq⟩ := Option.map_eq_some_iff.mp h
      cases heq
      rw [keys_items? items hitems, Term.keys]
      rfl
  | .table pairs, d, d', context, name, isItem, v, h => by
      rw [Document.value?] at h
      split at h
      case h_1 => cases h
      case h_2 d₁ hopen =>
        obtain ⟨d₂, hassign, heq⟩ := Option.map_eq_some_iff.mp h
        cases heq
        rw [keys_assignAll? pairs hassign, keys_open? hopen, Term.keys]
        rfl
  | .string _, d, d', context, name, isItem, v, h | .integer _, d, d', context, name, isItem, v, h
  | .float, d, d', context, name, isItem, v, h | .bool _, d, d', context, name, isItem, v, h
  | .datetime, d, d', context, name, isItem, v, h => by
      rw [Document.value?] at h
      cases h
      rw [Term.keys, List.append_nil]

theorem keys_items? : ∀ (xs : Terms) {d d' : Document} {context : Key} {name : Text}
    {vs : List Value}, d.items? context name xs = some (d', vs) →
    d'.keys = d.keys ++ xs.keys (context ++ [name])
  | .nil, d, d', context, name, vs, h => by
      rw [Document.items?] at h
      cases h
      rw [Terms.keys, List.append_nil]
  | .cons x rest, d, d', context, name, vs, h => by
      rw [Document.items?] at h
      split at h
      case h_1 => cases h
      case h_2 d₁ v hvalue =>
        obtain ⟨⟨d₂, ws⟩, hrest, heq⟩ := Option.map_eq_some_iff.mp h
        cases heq
        rw [keys_items? rest hrest, keys_value? x hvalue, Terms.keys, List.append_assoc]

theorem keys_assignAll? : ∀ (pairs : Pairs) {d d' : Document} {context : Key},
    d.assignAll? context pairs = some d' → d'.keys = d.keys ++ pairs.keys context
  | .nil, d, d', context, h => by
      rw [Document.assignAll?] at h
      cases h
      rw [Pairs.keys, List.append_nil]
  | .cons key x rest, d, d', context, h => by
      rw [Document.assignAll?] at h
      split at h
      case h_2 => cases h
      case h_1 name d₁ hname hway =>
        dsimp only at h
        split at h
        case h_1 => cases h
        case h_2 d₂ v hvalue =>
          split at h
          case h_1 => cases h
          case h_2 d₃ hset =>
            have hkey : context ++ key = (context ++ key.dropLast) ++ [name] := by
              rw [List.append_assoc, List.dropLast_append_getLast? name hname]
            have hnoted : d₃.keys = d.keys ++ (context ++ key) :: x.keys (context ++ key) := by
              rw [keys_assign? hset, keys_value? x hvalue, hkey, ← keys_openDotted? hway]
              exact List.append_assoc d₁.keys [_] _
            rw [keys_assignAll? rest h, Pairs.keys, ← List.append_assoc, ← hnoted]
            rfl

end

theorem keys_run? {ss : List Statement} : ∀ {d d' : Document} {context : Key},
    d.run? context ss = some d' → d'.keys = d.keys ++ Toml.keys context ss := by
  induction ss with
  | nil =>
      intro d d' context h
      cases h
      rw [Toml.keys, List.append_nil]
  | cons st rest ih =>
      intro d d' context h
      obtain ⟨⟨d₁, context'⟩, hstep, hrest⟩ := Option.bind_eq_some_iff.mp h
      rw [ih hrest]
      cases st with
      | table key | element key =>
          obtain ⟨d₂, hopen, heq⟩ := Option.bind_eq_some_iff.mp hstep
          cases heq
          rw [Toml.keys, List.append_cons, ← keys_open? hopen]
          rfl
      | assign key x =>
          obtain ⟨d₂, hassign, heq⟩ := Option.bind_eq_some_iff.mp hstep
          cases heq
          rw [keys_assignAll? _ hassign, Toml.keys, List.append_assoc]

/-- A document keeps the keys of all assignments. -/
theorem mem_keys_of_mem_assignments {content : Text} {d : Document}
    (h : Document.read? content = some d) {p : Key × Term} (hp : p ∈ assignments content) :
    p.1 ∈ d.keys := by
  obtain ⟨ss, hss, hrun⟩ := Option.bind_eq_some_iff.mp h
  rw [assignments, hss] at hp
  rw [keys_run? hrun]
  exact mem_keys_of_mem_leaves hp

end Document

end LineReview.Toml
