import LineReview.FileSystem.Access
import Mathlib.Data.List.Basic

/-!
# Names on a path

Splitting a text at a separator and joining the parts are inverse to each
other. For paths this means that the shortest spelling of a list of names reads
back as that list, both by `Path.names`, which carries out `.` and `..`, and by
`FileSystem.pieces`, which does not.

`Normal` describes the lists that `Path.names` returns, last name first: no
empty name, no `.`, and `..` only in front of a relative path.
-/

namespace LineReview

namespace Text

theorem splitOn_of_notMem {sep : UInt8} {t : Text} (h : sep ∉ t) : splitOn sep t = [t] := by
  induction t with
  | nil => rfl
  | cons b t ih =>
      rw [List.mem_cons, not_or] at h
      simp [splitOn, Ne.symm h.1, ih h.2]

theorem notMem_of_mem_splitOn {sep : UInt8} {t p : Text} (hp : p ∈ splitOn sep t) : sep ∉ p := by
  induction t generalizing p with
  | nil =>
      rw [splitOn, List.mem_singleton] at hp
      simp [hp]
  | cons b t ih =>
      by_cases hb : b = sep
      · rw [splitOn, if_pos hb, List.mem_cons] at hp
        rcases hp with rfl | hp
        · simp
        · exact ih hp
      · cases hs : splitOn sep t with
        | nil => exact absurd hs (splitOn_ne_nil sep t)
        | cons q qs =>
            simp only [splitOn, if_neg hb, hs, List.mem_cons] at hp
            rcases hp with rfl | hp
            · rw [List.mem_cons, not_or]
              exact ⟨Ne.symm hb, ih (hs ▸ List.mem_cons_self)⟩
            · exact ih (hs ▸ List.mem_cons_of_mem _ hp)

theorem joinWith_cons {sep : Text} {p : Text} {ps : List Text} (hps : ps ≠ []) :
    joinWith sep (p :: ps) = p ++ sep ++ joinWith sep ps := by
  cases ps with
  | nil => exact absurd rfl hps
  | cons q qs => rfl

theorem joinWith_concat {sep : Text} {ps : List Text} (p : Text) (hps : ps ≠ []) :
    joinWith sep (ps ++ [p]) = joinWith sep ps ++ sep ++ p := by
  induction ps with
  | nil => exact absurd rfl hps
  | cons q qs ih =>
      cases qs with
      | nil => simp [joinWith]
      | cons r rs =>
          have hrest : r :: rs ≠ [] := List.cons_ne_nil r rs
          rw [List.cons_append, joinWith_cons (by simp), ih hrest, joinWith_cons hrest]
          simp only [List.append_assoc]

theorem splitOn_joinWith {sep : UInt8} {ps : List Text} (hne : ps ≠ [])
    (hps : ∀ p ∈ ps, sep ∉ p) : splitOn sep (joinWith [sep] ps) = ps := by
  induction ps with
  | nil => exact absurd rfl hne
  | cons p ps ih =>
      have hp := splitOn_of_notMem (hps p List.mem_cons_self)
      cases ps with
      | nil => exact hp
      | cons q qs =>
          have hrest := ih (by simp) (fun r hr => hps r (List.mem_cons_of_mem _ hr))
          rw [joinWith_cons (by simp), List.append_assoc, List.singleton_append, splitOn_append,
            hp, hrest]
          rfl

theorem slash_notMem_decimal (n : Nat) : 47 ∉ decimal n := by
  intro hmem
  obtain ⟨c, hc, heq⟩ := List.mem_map.mp hmem
  have hdigit := Nat.isDigit_of_mem_toDigits (by decide) (by decide) hc
  simp only [Char.isDigit, Bool.and_eq_true, decide_eq_true_eq] at hdigit
  have hlow : 48 ≤ c.toNat := hdigit.1
  have hhigh : c.toNat ≤ 57 := hdigit.2
  have hbyte : c.toNat % 256 = 47 := by simpa [byteOf, Nat.toUInt8] using congrArg UInt8.toNat heq
  omega

theorem slash_notMem_decimalPadded (width n : Nat) : 47 ∉ decimalPadded width n := by
  rw [decimalPadded, List.mem_append, not_or]
  refine ⟨?_, slash_notMem_decimal n⟩
  intro hmem
  cases List.eq_of_mem_replicate hmem

end Text

namespace Path

/-- A name that is neither empty nor a step, and has no slash. -/
structure IsName (n : Text) : Prop where
  ne_nil : n ≠ []
  ne_here : n ≠ [46]
  ne_up : n ≠ up
  no_slash : 47 ∉ n

/-- Names of a path in reverse, with every step carried out as far as possible. -/
def Normal (rooted : Bool) : List Text → Prop
  | [] => True
  | top :: rest =>
    top ≠ [] ∧ top ≠ [46] ∧ 47 ∉ top ∧
      (top = up → rooted = false ∧ ∀ x ∈ rest, x = up) ∧ Normal rooted rest

theorem Normal.no_slash {rooted : Bool} {st : List Text} (h : Normal rooted st) :
    ∀ x ∈ st, 47 ∉ x := by
  induction st with
  | nil => simp
  | cons top rest ih =>
      obtain ⟨_, _, hslash, _, hrest⟩ := h
      intro x hx
      rcases List.mem_cons.mp hx with rfl | hx
      · exact hslash
      · exact ih hrest x hx

theorem Normal.ne_nil {rooted : Bool} {st : List Text} (h : Normal rooted st) :
    ∀ x ∈ st, x ≠ [] := by
  induction st with
  | nil => simp
  | cons top rest ih =>
      intro x hx
      rcases List.mem_cons.mp hx with rfl | hx
      · exact h.1
      · exact ih h.2.2.2.2 x hx

/-- From the root, every step is carried out. -/
theorem Normal.isName {st : List Text} (h : Normal true st) : ∀ x ∈ st, IsName x := by
  induction st with
  | nil => simp
  | cons top rest ih =>
      obtain ⟨hne, hhere, hslash, hup, hrest⟩ := h
      intro x hx
      rcases List.mem_cons.mp hx with rfl | hx
      · exact ⟨hne, hhere, fun hx => Bool.noConfusion (hup hx).1, hslash⟩
      · exact ih hrest x hx

theorem Normal.cons {rooted : Bool} {st : List Text} {n : Text} (h : Normal rooted st)
    (hn : IsName n) : Normal rooted (n :: st) :=
  ⟨hn.ne_nil, hn.ne_here, hn.no_slash, fun hup => absurd hup hn.ne_up, h⟩

/-- Only steps that leave a relative path stand below such a step. -/
theorem Normal.all_up {rooted : Bool} {st : List Text} (h : Normal rooted (up :: st)) :
    ∀ x ∈ up :: st, x = up := by
  intro x hx
  rcases List.mem_cons.mp hx with rfl | hx
  · rfl
  · exact (h.2.2.2.1 rfl).2 x hx

theorem descend_isName (rooted : Bool) (st : List Text) {n : Text} (hn : IsName n) :
    descend rooted st n = n :: st := by
  simp [descend, hn.ne_nil, hn.ne_here, hn.ne_up]

theorem normal_descend {rooted : Bool} {st : List Text} {n : Text} (hst : Normal rooted st)
    (hn : 47 ∉ n) : Normal rooted (descend rooted st n) := by
  unfold descend
  by_cases hskip : n = [] ∨ n = [46]
  · simpa [hskip] using hst
  rw [not_or] at hskip
  by_cases hup : n = up
  · subst hup
    cases st with
    | nil =>
        cases rooted with
        | true => simp [up, Normal]
        | false => simp [up, Normal]
    | cons top rest =>
        by_cases htop : top = up
        · subst htop
          have hrooted := (hst.2.2.2.1 rfl).1
          have hall := hst.all_up
          have hnormal : Normal rooted (up :: up :: rest) :=
            ⟨hskip.1, hskip.2, hn, fun _ => ⟨hrooted, hall⟩, hst⟩
          simpa [up] using hnormal
        · have htop' : top ≠ [46, 46] := htop
          simpa [up, htop'] using hst.2.2.2.2
  · simpa [hskip, hup] using hst.cons ⟨hskip.1, hskip.2, hup, hn⟩

theorem normal_foldl {rooted : Bool} {ns st : List Text} (hst : Normal rooted st)
    (hns : ∀ n ∈ ns, 47 ∉ n) : Normal rooted (ns.foldl (descend rooted) st) := by
  induction ns generalizing st with
  | nil => exact hst
  | cons n ns ih =>
      exact ih (normal_descend hst (hns n List.mem_cons_self))
        (fun m hm => hns m (List.mem_cons_of_mem _ hm))

theorem normal_names (p : Text) : Normal (isAbsolute p) (names p).reverse := by
  rw [names, List.reverse_reverse]
  have hempty : Normal (isAbsolute p) [] := trivial
  exact normal_foldl hempty (fun n hn => Text.notMem_of_mem_splitOn hn)

/-- Carrying out the steps of a list that has none left changes nothing. -/
theorem foldl_descend_reverse {rooted : Bool} {st : List Text} (hst : Normal rooted st) :
    st.reverse.foldl (descend rooted) [] = st := by
  induction st with
  | nil => rfl
  | cons top rest ih =>
      rw [List.reverse_cons, List.foldl_append, ih hst.2.2.2.2]
      obtain ⟨hne, hhere, hslash, hup, _⟩ := hst
      by_cases htop : top = up
      · obtain ⟨hrooted, hall⟩ := hup htop
        cases rest with
        | nil => simp [descend, htop, hrooted, up]
        | cons x xs =>
            have hx : x = up := hall x List.mem_cons_self
            simp [descend, htop, hx, up]
      · exact descend_isName rooted rest ⟨hne, hhere, htop, hslash⟩

theorem isAbsolute_ofNames {rooted : Bool} {ns : List Text} (hns : Normal rooted ns.reverse) :
    isAbsolute (ofNames rooted ns) = rooted := by
  cases rooted with
  | true => rfl
  | false =>
      cases ns with
      | nil => rfl
      | cons n ns =>
          have hmem : n ∈ (n :: ns).reverse := by simp
          have hslash := hns.no_slash n hmem
          cases n with
          | nil => exact absurd rfl (hns.ne_nil [] hmem)
          | cons b t =>
              have hb : b ≠ 47 := fun h => hslash (h ▸ List.mem_cons_self)
              have hjoin : ∃ u, ofNames false ((b :: t) :: ns) = b :: u := by
                cases ns with
                | nil => exact ⟨t, rfl⟩
                | cons m ms => exact ⟨t ++ [47] ++ Text.joinWith [47] (m :: ms), rfl⟩
              obtain ⟨u, hu⟩ := hjoin
              rw [hu, isAbsolute]
              simpa using hb

/-- The parts of a spelling between its slashes: the names, and an empty part in front for a
path that starts at the root. -/
theorem splitOn_ofNames {rooted : Bool} {ns : List Text} (hns : Normal rooted ns.reverse)
    (hne : ns ≠ []) :
    Text.splitOn 47 (ofNames rooted ns) = (if rooted then [[]] else []) ++ ns := by
  have hslash : ∀ p ∈ ns, (47 : UInt8) ∉ p := fun p hp => hns.no_slash p (by simpa using hp)
  have hjoin := Text.splitOn_joinWith hne hslash
  cases rooted with
  | true =>
      have hsplit := Text.splitOn_append 47 [] (Text.joinWith [47] ns)
      rw [hjoin] at hsplit
      exact hsplit
  | false => simpa [ofNames, hne] using hjoin

theorem names_ofNames {rooted : Bool} {ns : List Text} (hns : Normal rooted ns.reverse) :
    names (ofNames rooted ns) = ns := by
  have habsolute := isAbsolute_ofNames hns
  have hfold := foldl_descend_reverse hns
  rw [List.reverse_reverse] at hfold
  by_cases hne : ns = []
  · subst hne
    cases rooted <;> rfl
  · rw [names, habsolute, splitOn_ofNames hns hne, List.foldl_append]
    cases rooted with
    | true => simpa [descend] using congrArg List.reverse hfold
    | false => simpa using congrArg List.reverse hfold

theorem foldl_descend_isName {rooted : Bool} {ms : List Text} (hms : ∀ m ∈ ms, IsName m)
    (st : List Text) : ms.foldl (descend rooted) st = ms.reverse ++ st := by
  induction ms generalizing st with
  | nil => rfl
  | cons m ms ih =>
      rw [List.foldl_cons, descend_isName _ _ (hms m List.mem_cons_self),
        ih (fun k hk => hms k (List.mem_cons_of_mem _ hk))]
      simp

/-- Names put behind a folder stay as they are. -/
theorem names_append {dir : Text} {ms : List Text} (hdir : dir ≠ []) (hne : ms ≠ [])
    (hms : ∀ m ∈ ms, IsName m) :
    names (dir ++ 47 :: Text.joinWith [47] ms) = names dir ++ ms ∧
      isAbsolute (dir ++ 47 :: Text.joinWith [47] ms) = isAbsolute dir := by
  have habsolute : isAbsolute (dir ++ 47 :: Text.joinWith [47] ms) = isAbsolute dir := by
    obtain ⟨b, t, rfl⟩ := List.exists_cons_of_ne_nil hdir
    by_cases hb : b = 47
    · simp [isAbsolute, hb]
    · simp [isAbsolute, hb]
  refine ⟨?_, habsolute⟩
  rw [names, habsolute, Text.splitOn_append,
    Text.splitOn_joinWith hne (fun m hm => (hms m hm).no_slash), List.foldl_append,
    foldl_descend_isName hms, names]
  simp

theorem normal_append {rooted : Bool} {ns ms : List Text} (hns : Normal rooted ns.reverse)
    (hms : ∀ m ∈ ms, IsName m) : Normal rooted (ns ++ ms).reverse := by
  induction ms generalizing ns with
  | nil => simpa using hns
  | cons m ms ih =>
      have hcons : Normal rooted (ns ++ [m]).reverse := by
        rw [List.reverse_append]
        exact hns.cons (hms m List.mem_cons_self)
      have happend := ih hcons (fun k hk => hms k (List.mem_cons_of_mem _ hk))
      rwa [List.append_assoc] at happend

theorem normal_of_isName {ns : List Text} (hns : ∀ n ∈ ns, IsName n) (rooted : Bool) :
    Normal rooted ns.reverse := by
  have hempty : Normal rooted ([] : List Text).reverse := trivial
  exact normal_append hempty hns

theorem ofNames_ne_nil {rooted : Bool} {ns : List Text} (hns : Normal rooted ns.reverse) :
    ofNames rooted ns ≠ [] := by
  intro hnil
  by_cases hne : ns = []
  · subst hne
    cases rooted <;> cases hnil
  · -- The empty text has one part, the empty one, and that is no name.
    have hparts := splitOn_ofNames hns hne
    rw [hnil] at hparts
    have hempty : ([] : Text) ∈ ns := by
      cases rooted with
      | true => exact absurd (List.cons.inj hparts).2.symm hne
      | false =>
          have hns' : [[]] = ns := hparts
          rw [← hns']
          exact List.mem_singleton_self _
    exact hns.ne_nil [] (by simpa using hempty) rfl

/-- A spelling ends in its last name. -/
theorem ofNames_concat (rooted : Bool) (ns : List Text) (n : Text) :
    ∃ front, ofNames rooted (ns ++ [n]) = front ++ n := by
  have hjoin : ∃ front, Text.joinWith [47] (ns ++ [n]) = front ++ n := by
    by_cases hns : ns = []
    · exact ⟨[], by rw [hns]; rfl⟩
    · exact ⟨Text.joinWith [47] ns ++ [47], by rw [Text.joinWith_concat n hns]⟩
  obtain ⟨front, hfront⟩ := hjoin
  cases rooted with
  | true => exact ⟨47 :: front, by simp [ofNames, hfront]⟩
  | false => exact ⟨front, by simp [ofNames, hfront]⟩

/-- One more name is one more slash. -/
theorem ofNames_append_name (rooted : Bool) {ns : List Text} (hns : ns ≠ []) (n : Text) :
    ofNames rooted (ns ++ [n]) = ofNames rooted ns ++ 47 :: n := by
  have hjoin : Text.joinWith [47] (ns ++ [n]) = Text.joinWith [47] ns ++ [47] ++ n :=
    Text.joinWith_concat n hns
  cases rooted with
  | true => simp [ofNames, hjoin]
  | false => simp [ofNames, hns, hjoin]

/-- What is put behind a spelling goes to its last name. -/
theorem ofNames_append_text (rooted : Bool) (ns : List Text) (n t : Text) :
    ofNames rooted (ns ++ [n]) ++ t = ofNames rooted (ns ++ [n ++ t]) := by
  by_cases hns : ns = []
  · subst hns
    cases rooted <;> simp [ofNames, Text.joinWith]
  · rw [ofNames_append_name rooted hns, ofNames_append_name rooted hns, List.append_assoc,
      List.cons_append]

/-- A spelling does not end in a slash. -/
theorem getLast?_ofNames {rooted : Bool} {ns : List Text} (hns : Normal rooted ns.reverse)
    (hne : ns ≠ []) : (ofNames rooted ns).getLast? ≠ some 47 := by
  obtain ⟨front, last, rfl⟩ := List.eq_nil_or_concat ns |>.resolve_left hne
  rw [List.concat_eq_append] at hns ⊢
  have hmem : last ∈ (front ++ [last]).reverse := by simp
  obtain ⟨spelled, hspelled⟩ := ofNames_concat rooted front last
  rw [hspelled, List.getLast?_append_of_ne_nil _ (hns.ne_nil last hmem)]
  intro hslash
  exact hns.no_slash last hmem (List.mem_of_getLast? hslash)

/-- Joining names to a folder appends them to its names. -/
theorem join_names (dir : Text) {ms : List Text} (hne : ms ≠ []) (hms : ∀ m ∈ ms, IsName m) :
    join dir (Text.joinWith [47] ms) = ofNames (isAbsolute dir) (names dir ++ ms) := by
  have hnormal : Normal false ms.reverse := normal_of_isName hms false
  have hspell : Text.joinWith [47] ms = ofNames false ms := by simp [ofNames, hne]
  have hsome : Text.joinWith [47] ms ≠ [] := hspell ▸ ofNames_ne_nil hnormal
  unfold join
  by_cases hdir : dir = []
  · rw [if_pos hdir, if_neg hsome, hdir, hspell, clean, names_ofNames hnormal,
      isAbsolute_ofNames hnormal]
    rfl
  · obtain ⟨hnames, habsolute⟩ := names_append hdir hne hms
    rw [if_neg hdir, if_neg hsome, clean, hnames, habsolute]

end Path

namespace FileSystem

/-- A spelling of names is followed name by name. -/
theorem pieces_ofNames {rooted : Bool} {ns : List Text} (hns : Path.Normal rooted ns.reverse)
    (hne : ns ≠ []) : pieces (Path.ofNames rooted ns) = ns := by
  have hnames : ns.filter (· ≠ []) = ns :=
    List.filter_eq_self.mpr (fun n hn => by simpa using hns.ne_nil n (by simpa using hn))
  rw [pieces, Path.splitOn_ofNames hns hne, List.filter_append, hnames]
  cases rooted <;> simp

end FileSystem

end LineReview
