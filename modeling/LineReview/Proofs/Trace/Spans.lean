import LineReview.Proofs.Trace.Levels

/-!
# Spans in a trace

Spans may be closed twice, in any order, or never. Whatever a program does with
them, its trace tells of each span in order: the span begins once, it ends at most
once and after it began, and what happens below it is told after it began.

`IsDisciplined` says this of a log alone. The invariant `Session.Tracks` ties the
log to the contexts and the open spans of the program that produced it.
-/

namespace LineReview.Trace

namespace Event

def begins (e : Event) (id : Nat) : Bool := e.kind = .start && e.span = id

def ends (e : Event) (id : Nat) : Bool := e.kind = .finish && e.span = id

@[simp] theorem begins_iff {e : Event} {id : Nat} :
    e.begins id = true ↔ e.kind = .start ∧ e.span = id := by simp [begins]

@[simp] theorem ends_iff {e : Event} {id : Nat} :
    e.ends id = true ↔ e.kind = .finish ∧ e.span = id := by simp [ends]

theorem not_ends_of_kind {e : Event} {k : Kind} (hkind : e.kind = k) (hk : k ≠ .finish)
    (id : Nat) : ¬ e.ends id = true :=
  fun hends => hk (hkind.symm.trans (ends_iff.mp hends).1)

/-- The event begins the span that the other one ends. -/
structure Opens (b e : Event) : Prop where
  begins : b.begins e.span = true
  scope : b.scope = e.scope
  name : b.name = e.name
  parent : b.parent = e.parent

end Event

/-! ## Logs -/

/-- A log that tells of its spans in order. -/
structure IsDisciplined (log : List Event) : Prop where
  /-- Beginnings and endings name a span; nothing else does. -/
  named : ∀ e ∈ log, e.span ≠ 0 ↔ e.kind = .start ∨ e.kind = .finish
  begun_once : ∀ e ∈ log, e.span ≠ 0 → log.countP (·.begins e.span) = 1
  ended_once : ∀ id, log.countP (·.ends id) ≤ 1
  /-- A span ends after it began, as what it began as. -/
  ended : ∀ before e after, log = before ++ e :: after → e.kind = .finish →
    ∃ b ∈ before, b.Opens e
  /-- Only a span that began before has something below it. -/
  parents : ∀ before e after, log = before ++ e :: after → e.parent ≠ 0 →
    ∃ b ∈ before, b.begins e.parent = true
  numbers : log.map (·.seq) = List.range' 1 log.length

theorem IsDisciplined.nil : IsDisciplined [] where
  named _ he := nomatch he
  begun_once _ he := nomatch he
  ended_once _ := Nat.zero_le 1
  ended _ _ _ hsplit := by simp at hsplit
  parents _ _ _ hsplit := by simp at hsplit
  numbers := rfl

/-- The event may come next in the log. -/
structure Event.Continues (e : Event) (log : List Event) : Prop where
  named : e.span ≠ 0 ↔ e.kind = .start ∨ e.kind = .finish
  fresh : e.kind = .start → ∀ x ∈ log, x.span ≠ e.span
  opened : e.kind = .finish → ∃ b ∈ log, b.Opens e
  not_ended : e.kind = .finish → ∀ x ∈ log, ¬ x.ends e.span = true
  parent : e.parent ≠ 0 → ∃ b ∈ log, b.begins e.parent = true

/-- Clock readings and numbers do not matter. -/
theorem Event.Continues.restamp {e : Event} {log : List Event} (h : e.Continues log)
    (time : Instant) (elapsed : Duration) (seq : Nat) :
    Event.Continues { e with time, elapsed, seq } log where
  named := h.named
  fresh := h.fresh
  opened hkind := by
    obtain ⟨b, hb, hopens⟩ := h.opened hkind
    exact ⟨b, hb, hopens.begins, hopens.scope, hopens.name, hopens.parent⟩
  not_ended := h.not_ended
  parent := h.parent

/-- What holds of every element and those before it, told for a list with a new last element. -/
theorem forall_split_concat {α : Type} {P : List α → α → Prop} {l : List α} {a : α}
    (hl : ∀ before x after, l = before ++ x :: after → P before x) (ha : P l a) :
    ∀ before x after, l ++ [a] = before ++ x :: after → P before x := by
  intro before x after hsplit
  rcases List.eq_nil_or_concat' after with rfl | ⟨after, z, rfl⟩
  · obtain ⟨rfl, hx⟩ := List.append_inj' hsplit rfl
    cases hx
    exact ha
  · have hsplit' : l ++ [a] = (before ++ x :: after) ++ [z] := by simpa using hsplit
    exact hl before x after (List.append_inj' hsplit' rfl).1

theorem IsDisciplined.concat {log : List Event} (h : IsDisciplined log) {e : Event}
    (he : e.Continues log) (hseq : e.seq = log.length + 1) : IsDisciplined (log ++ [e]) where
  named x hx := by
    rcases List.mem_append.mp hx with hx | hx
    · exact h.named x hx
    · cases List.mem_singleton.mp hx
      exact he.named
  begun_once x hx hspan := by
    rw [List.countP_append, List.countP_singleton]
    rcases List.mem_append.mp hx with hx | hx
    · have hother : ¬ e.begins x.span = true := by
        rw [Event.begins_iff]
        rintro ⟨hkind, hsame⟩
        exact he.fresh hkind x hx hsame.symm
      rw [h.begun_once x hx hspan, if_neg hother]
    · cases List.mem_singleton.mp hx
      rcases he.named.mp hspan with hkind | hkind
      · have hnone : log.countP (·.begins e.span) = 0 := by
          rw [List.countP_eq_zero]
          intro y hy hbegins
          exact he.fresh hkind y hy (Event.begins_iff.mp hbegins).2
        rw [hnone, if_pos (Event.begins_iff.mpr ⟨hkind, rfl⟩)]
      · obtain ⟨b, hb, hopens⟩ := he.opened hkind
        have hid : b.span = e.span := (Event.begins_iff.mp hopens.begins).2
        have hother : ¬ e.begins e.span = true := by simp [hkind, Kind.finish, Kind.start]
        rw [← hid, h.begun_once b hb (hid ▸ hspan), hid, if_neg hother]
  ended_once id := by
    rw [List.countP_append, List.countP_singleton]
    split
    case isTrue hends =>
      obtain ⟨hkind, rfl⟩ := Event.ends_iff.mp hends
      have hnone := List.countP_eq_zero.mpr (he.not_ended hkind)
      exact Nat.succ_le_succ (Nat.le_of_eq hnone)
    case isFalse => exact h.ended_once id
  ended := forall_split_concat h.ended he.opened
  parents := forall_split_concat h.parents he.parent
  numbers := by
    rw [List.map_append, h.numbers, List.length_append, List.length_singleton,
      List.range'_1_concat, List.map_singleton, hseq, Nat.add_comm 1]

/-! ## Programs -/

namespace Session

/-- The span began in the log and did not end. -/
structure OpenIn (sp : Span) (log : List Event) : Prop where
  opened : ∃ b ∈ log, b.begins sp.id = true ∧ b.scope = sp.scope ∧ b.name = sp.name ∧
    b.parent = sp.parent
  not_ended : ∀ e ∈ log, ¬ e.ends sp.id = true

/-- The log tells of every context and every open span of the program. -/
structure Tracks (s : Session) (log : List Event) : Prop where
  disciplined : IsDisciplined log
  span_le : ∀ e ∈ log, e.span ≤ s.recorder.lastSpan
  positions : ∀ name, (s.position name).span ≠ 0 →
    ∃ b ∈ log, b.begins (s.position name).span = true
  spans : ∀ name, (s.span name).isOpen = true → OpenIn (s.span name) log
  allowed : ∀ name, (s.span name).isOpen = true →
    s.recorder.tracer.level.allows (s.span name).scope = true
  apart : ∀ name name', (s.span name).isOpen = true → (s.span name').isOpen = true →
    (s.span name).id = (s.span name').id → name = name'

/-- Spans that differ in their fields only. -/
def SameSpan (x y : Span) : Prop :=
  x.id = y.id ∧ x.parent = y.parent ∧ x.scope = y.scope ∧ x.name = y.name

namespace Tracks

variable {s s' : Session} {log : List Event}

/-- A step that produces no event moves to positions that are known, and opens no span. -/
theorem quiet (h : Tracks s log) (hlevel : s'.recorder.tracer.level = s.recorder.tracer.level)
    (hlast : s.recorder.lastSpan ≤ s'.recorder.lastSpan)
    (hpositions : ∀ name, (s'.position name).span = 0 ∨
      ∃ from_, (s'.position name).span = (s.position from_).span)
    (hspans : ∀ name, (s'.span name).isOpen = true → SameSpan (s'.span name) (s.span name)) :
    Tracks s' log := by
  have hopen : ∀ name, (s'.span name).isOpen = true → (s.span name).isOpen = true := by
    intro name hname
    rwa [Span.isOpen, ← (hspans name hname).1]
  refine ⟨h.disciplined, fun e he => Nat.le_trans (h.span_le e he) hlast, ?_, ?_, ?_, ?_⟩
  · intro name hspan
    rcases hpositions name with hzero | ⟨from_, hfrom⟩
    · exact absurd hzero hspan
    · rw [hfrom] at hspan ⊢
      exact h.positions from_ hspan
  · intro name hname
    obtain ⟨hid, hparent, hscope, htitle⟩ := hspans name hname
    obtain ⟨hopened, hended⟩ := h.spans name (hopen name hname)
    refine ⟨?_, by rwa [hid]⟩
    rwa [hid, hparent, hscope, htitle]
  · intro name hname
    rw [hlevel, (hspans name hname).2.2.1]
    exact h.allowed name (hopen name hname)
  · intro name name' hname hname' hsame
    rw [(hspans name hname).1, (hspans name' hname').1] at hsame
    exact h.apart name name' (hopen name hname) (hopen name' hname') hsame

/-- An event that ends no open span is added to the log. -/
theorem told (h : Tracks s log) {e : Event} (he : e.Continues log)
    (hspan : e.span ≤ s.recorder.lastSpan)
    (hends : ∀ name, (s.span name).isOpen = true → ¬ e.ends (s.span name).id = true)
    (time : Instant) (elapsed : Duration) :
    Tracks s (log ++ [{ e with time, elapsed, seq := log.length + 1 }]) := by
  refine ⟨h.disciplined.concat (he.restamp ..) rfl, ?_, ?_, ?_, h.allowed, h.apart⟩
  · intro x hx
    rcases List.mem_append.mp hx with hx | hx
    · exact h.span_le x hx
    · cases List.mem_singleton.mp hx
      exact hspan
  · intro name hname
    obtain ⟨b, hb, hbegins⟩ := h.positions name hname
    exact ⟨b, List.mem_append_left _ hb, hbegins⟩
  · intro name hname
    obtain ⟨⟨b, hb, hsame⟩, hended⟩ := h.spans name hname
    refine ⟨⟨b, List.mem_append_left _ hb, hsame⟩, ?_⟩
    intro x hx
    rcases List.mem_append.mp hx with hx | hx
    · exact hended x hx
    · cases List.mem_singleton.mp hx
      exact hends name hname

/-- A span that began and is bound to no name yet gets one. -/
theorem bind (h : Tracks s log) {sp : Span} {p : Position} (name : Text) (hsp : OpenIn sp log)
    (hp : p.span = sp.id) (hallowed : s.recorder.tracer.level.allows sp.scope = true)
    (hnew : ∀ key, (s.span key).isOpen = true → (s.span key).id ≠ sp.id) :
    Tracks { s with contexts := rebind name p s.contexts, spans := rebind name sp s.spans }
      log := by
  obtain ⟨b, hb, hbegins, hsame⟩ := hsp.opened
  refine ⟨h.disciplined, h.span_le, ?_, ?_, ?_, ?_⟩
  · intro key hkey
    simp only [position, lookup_rebind] at hkey ⊢
    split
    · exact ⟨b, hb, hp ▸ hbegins⟩
    · rw [if_neg ‹_›] at hkey
      exact h.positions key hkey
  · intro key hkey
    simp only [span, lookup_rebind] at hkey ⊢
    split
    · exact hsp
    · rw [if_neg ‹_›] at hkey
      exact h.spans key hkey
  · intro key hkey
    simp only [span, lookup_rebind] at hkey ⊢
    split
    · exact hallowed
    · rw [if_neg ‹_›] at hkey
      exact h.allowed key hkey
  · intro key key' hkey hkey' hid
    simp only [span, lookup_rebind] at hkey hkey' hid
    by_cases hname : key = name <;> by_cases hname' : key' = name
    · rw [hname, hname']
    · simp only [if_pos hname, if_neg hname', Option.getD_some] at hkey' hid
      exact absurd hid.symm (hnew key' hkey')
    · simp only [if_neg hname, if_pos hname', Option.getD_some] at hkey hid
      exact absurd hid (hnew key hkey)
    · simp only [if_neg hname, if_neg hname'] at hkey hkey' hid
      exact h.apart key key' hkey hkey' hid

theorem id_le (h : Tracks s log) {name : Text} (hopen : (s.span name).isOpen = true) :
    (s.span name).id ≤ s.recorder.lastSpan := by
  obtain ⟨b, hb, hbegins, _⟩ := (h.spans name hopen).opened
  rw [← (Event.begins_iff.mp hbegins).2]
  exact h.span_le b hb

/-- An event below a position, of a kind that names no span. -/
theorem continues_point (h : Tracks s log) {e : Event} {name : Text} (hkind : e.kind = .point)
    (hspan : e.span = 0) (hparent : e.parent = (s.position name).span) : e.Continues log where
  named := by simp [hspan, hkind, Kind.point, Kind.start, Kind.finish]
  fresh hstart := absurd (hkind.symm.trans hstart) (by decide)
  opened hfinish := absurd (hkind.symm.trans hfinish) (by decide)
  not_ended hfinish := absurd (hkind.symm.trans hfinish) (by decide)
  parent hne := by
    rw [hparent] at hne ⊢
    exact h.positions name hne

theorem continues_beginning (h : Tracks s log) (from_ : Text) (scope : Scope) (title : Text) :
    (s.recorder.beginning (s.position from_) scope title).Continues log where
  named := ⟨fun _ => .inl rfl, fun _ => Nat.succ_ne_zero _⟩
  fresh _ x hx hsame := by
    have hle := h.span_le x hx
    rw [hsame] at hle
    exact Nat.not_succ_le_self _ hle
  opened hfinish := absurd (show Kind.start = .finish from hfinish) (by decide)
  not_ended hfinish := absurd (show Kind.start = .finish from hfinish) (by decide)
  parent := h.positions from_

theorem continues_ending (h : Tracks s log) {name : Text} (hopen : (s.span name).isOpen = true)
    (detail : Text) : (Recorder.ending (s.span name) detail).Continues log := by
  obtain ⟨⟨b, hb, hbegins, hscope, htitle, hparent⟩, hended⟩ := h.spans name hopen
  refine ⟨⟨fun _ => .inr rfl, fun _ => bne_iff_ne.mp hopen⟩, nofun,
    fun _ => ⟨b, hb, hbegins, hscope, htitle, hparent⟩, fun _ => hended, ?_⟩
  -- The parent of the span began before the span did.
  change (s.span name).parent ≠ 0 → ∃ p ∈ log, p.begins (s.span name).parent = true
  rw [← hparent]
  intro hne
  obtain ⟨before, after, rfl⟩ := List.append_of_mem hb
  obtain ⟨p, hp, hpbegins⟩ := h.disciplined.parents before b after rfl hne
  exact ⟨p, List.mem_append_left _ hp, hpbegins⟩

/-- The events of a step as the log has them. -/
def stored (s : Session) (n : Nat) (st : Step) : List Event :=
  ((s.handed? st).toList.filter s.recorder.tracer.level.keeps).map ({ · with seq := n + 1 })

theorem stored_of_handed? (hclocks : s.recorder.StampsClocks) (n : Nat) (st : Step) {e : Event}
    (hst : s.handed? st = some (s.recorder.stamp e))
    (hkeeps : s.recorder.tracer.level.keeps e = true) :
    ∃ time elapsed, stored s n st = [{ e with time, elapsed, seq := n + 1 }] := by
  obtain ⟨time, elapsed, heq⟩ := hclocks e
  have hkeeps' : s.recorder.tracer.level.keeps (s.recorder.stamp e) = true := by
    rw [Level.keeps_congr _ (hclocks.content e), hkeeps]
  refine ⟨time, elapsed, ?_⟩
  rw [stored, hst, Option.toList_some, List.filter_cons_of_pos hkeeps', List.filter_nil,
    List.map_singleton, heq]

theorem stored_of_silent {n : Nat} (st : Step) (hst : s.handed? st = none) :
    stored s n st = [] := by rw [stored, hst]; rfl

theorem start (h : Tracks s log) (hclocks : s.recorder.StampsClocks) (from_ name : Text)
    (scope : Scope) (title : Text) :
    Tracks (s.step (.start from_ name scope title))
      (log ++ stored s log.length (.start from_ name scope title)) := by
  by_cases hallows : (s.recorder.levelAt (s.position from_)).allows scope = true
  · have hscope := (Recorder.allows_levelAt.mp hallows).2
    obtain ⟨time, elapsed, hstored⟩ :=
      stored_of_handed? hclocks log.length (.start from_ name scope title) (if_pos hallows)
        (by rwa [Recorder.keeps_beginning])
    rw [hstored]
    simp only [Session.step, Recorder.start_of_allows hallows]
    have hcounted : Tracks { s with recorder := { s.recorder with
        lastSpan := s.recorder.lastSpan + 1,
        tracer := s.recorder.tracer.emit (s.recorder.stamp
          (s.recorder.beginning (s.position from_) scope title)) } } log :=
      h.quiet (Tracer.level_emit ..) (Nat.le_succ _) (fun key => .inr ⟨key, rfl⟩)
        fun _ _ => ⟨rfl, rfl, rfl, rfl⟩
    have htold := hcounted.told (h.continues_beginning from_ scope title) (Nat.le_refl _)
      (fun _ _ => Event.not_ends_of_kind (k := .start) rfl (by decide) _) time elapsed
    refine htold.bind name ⟨?_, ?_⟩ rfl ?_ ?_
    · exact ⟨_, List.mem_append_right _ (List.mem_singleton_self _),
        Event.begins_iff.mpr ⟨rfl, rfl⟩, rfl, rfl, rfl⟩
    · intro e he
      rcases List.mem_append.mp he with he | he
      · intro hends
        have hle := h.span_le e he
        rw [(Event.ends_iff.mp hends).2] at hle
        exact Nat.not_succ_le_self _ hle
      · cases List.mem_singleton.mp he
        exact Event.not_ends_of_kind (k := .start) rfl (by decide) _
    · rwa [Tracer.level_emit]
    · intro key hkey hid
      have hle := h.id_le hkey
      rw [show (s.span key).id = s.recorder.lastSpan + 1 from hid] at hle
      exact Nat.not_succ_le_self _ hle
  · rw [stored_of_silent (.start from_ name scope title) (if_neg hallows), List.append_nil]
    simp only [Session.step, Recorder.start_of_not_allows hallows]
    refine h.quiet rfl (Nat.le_refl _) ?_ ?_
    · intro key
      simp only [position, lookup_rebind]
      split
      · exact .inr ⟨from_, rfl⟩
      · exact .inr ⟨key, rfl⟩
    · intro key hkey
      simp only [span, lookup_rebind] at hkey ⊢
      split
      · rw [if_pos ‹_›] at hkey
        cases hkey
      · exact ⟨rfl, rfl, rfl, rfl⟩

theorem finish (h : Tracks s log) (hclocks : s.recorder.StampsClocks) (name detail : Text) :
    Tracks (s.step (.finish name detail)) (log ++ stored s log.length (.finish name detail)) := by
  by_cases hopen : (s.span name).isOpen = true
  · obtain ⟨time, elapsed, hstored⟩ :=
      stored_of_handed? hclocks log.length (.finish name detail) (if_pos hopen)
        (by rw [Recorder.keeps_ending]; exact h.allowed name hopen)
    have hstep : s.step (.finish name detail) =
        { s with recorder := s.recorder.emit (Recorder.ending (s.span name) detail),
                 spans := rebind name {} s.spans } := by
      simp only [Session.step, Recorder.finish_of_open hopen]
    have hother : ∀ key, ((s.step (.finish name detail)).span key).isOpen = true →
        key ≠ name ∧ (s.step (.finish name detail)).span key = s.span key := by
      intro key hkey
      rw [hstep] at hkey ⊢
      simp only [span, lookup_rebind] at hkey ⊢
      split
      · rw [if_pos ‹_›] at hkey
        cases hkey
      · exact ⟨‹_›, rfl⟩
    rw [hstored]
    refine Tracks.told ?_ (h.continues_ending hopen detail) ?_ ?_ time elapsed
    · refine h.quiet (level_step ..) (by rw [hstep]; exact Nat.le_refl _)
        (fun key => .inr ⟨key, rfl⟩) ?_
      intro key hkey
      rw [(hother key hkey).2]
      exact ⟨rfl, rfl, rfl, rfl⟩
    · rw [hstep]
      exact h.id_le hopen
    · intro key hkey hends
      obtain ⟨hne, hsame⟩ := hother key hkey
      rw [hsame] at hkey hends
      exact hne (h.apart key name hkey hopen (Event.ends_iff.mp hends).2.symm)
  · rw [stored_of_silent (.finish name detail) (if_neg hopen), List.append_nil]
    simp only [Session.step, Recorder.finish_of_not_open hopen]
    refine h.quiet rfl (Nat.le_refl _) (fun key => .inr ⟨key, rfl⟩) ?_
    intro key hkey
    simp only [span, lookup_rebind] at hkey ⊢
    split
    · rename_i hname
      subst hname
      exact ⟨rfl, rfl, rfl, rfl⟩
    · exact ⟨rfl, rfl, rfl, rfl⟩

/-- A point is traced below a position, and nothing else changes. -/
theorem mark (h : Tracks s log) (hclocks : s.recorder.StampsClocks) (from_ : Text) {st : Step}
    {e : Event} (hst : s.handed? st = some (s.recorder.stamp e))
    (hstep : s.step st = { s with recorder := s.recorder.emit e })
    (hkeeps : s.recorder.tracer.level.keeps e = true) (hkind : e.kind = .point)
    (hspan : e.span = 0) (hparent : e.parent = (s.position from_).span) :
    Tracks (s.step st) (log ++ stored s log.length st) := by
  obtain ⟨time, elapsed, hstored⟩ := stored_of_handed? hclocks log.length st hst hkeeps
  rw [hstored, hstep]
  refine Tracks.told ?_ (h.continues_point hkind hspan hparent) ?_ ?_ time elapsed
  · exact h.quiet (Tracer.level_emit ..) (Nat.le_refl _) (fun key => .inr ⟨key, rfl⟩)
      fun _ _ => ⟨rfl, rfl, rfl, rfl⟩
  · rw [hspan]
    exact Nat.zero_le _
  · intro key _
    exact Event.not_ends_of_kind hkind (by decide) _

theorem step (h : Tracks s log) (hclocks : s.recorder.StampsClocks) {st : Step}
    (hraw : ∀ e, st ≠ .emit e) : Tracks (s.step st) (log ++ stored s log.length st) := by
  cases st with
  | emit e => exact absurd rfl (hraw e)
  | attach from_ name =>
      rw [stored_of_silent _ rfl, List.append_nil]
      refine h.quiet rfl (Nat.le_refl _) ?_ fun _ _ => ⟨rfl, rfl, rfl, rfl⟩
      intro key
      simp only [Session.step, position, lookup_rebind]
      split
      · exact .inl rfl
      · exact .inr ⟨key, rfl⟩
  | start from_ name scope title => exact h.start hclocks from_ name scope title
  | set name key value =>
      rw [stored_of_silent _ rfl, List.append_nil]
      refine h.quiet rfl (Nat.le_refl _) (fun key => .inr ⟨key, rfl⟩) ?_
      intro key' hkey
      simp only [Session.step, span, lookup_rebind] at hkey ⊢
      split
      · rename_i hname
        subst hname
        rw [Option.getD_some, Span.set]
        split <;> exact ⟨rfl, rfl, rfl, rfl⟩
      · exact ⟨rfl, rfl, rfl, rfl⟩
  | finish name detail => exact h.finish hclocks name detail
  | point from_ scope title detail =>
      by_cases hallows : (s.recorder.levelAt (s.position from_)).allows scope = true
      · refine h.mark hclocks from_ (if_pos hallows) ?_ ?_ rfl rfl rfl
        · rw [Session.step, Recorder.point_of_allows hallows]
        · rw [Recorder.keeps_instant]
          exact (Recorder.allows_levelAt.mp hallows).2
      · rw [stored_of_silent (.point from_ scope title detail) (if_neg hallows),
          List.append_nil, Session.step, Recorder.point, if_neg hallows]
        exact h
  | fail from_ scope title reason =>
      cases reason with
      | none =>
          rw [stored_of_silent _ rfl, List.append_nil]
          exact h
      | some m =>
          by_cases hon : (s.recorder.levelAt (s.position from_)).isOn = true
          · refine h.mark hclocks from_ (if_pos hon) ?_ ?_ rfl rfl rfl
            · rw [Session.step, Recorder.fail_of_isOn hon]
            · rw [Recorder.keeps_failing]
              exact (Recorder.isOn_levelAt.mp hon).2
          · rw [stored_of_silent (.fail from_ scope title (some m)) (if_neg hon),
              List.append_nil, Session.step, Recorder.fail, if_neg hon]
            exact h

end Tracks

theorem tracks_new (r : Recorder) : Tracks { recorder := r } [] where
  disciplined := .nil
  span_le _ he := nomatch he
  positions name hspan := by
    have hzero : (Session.position { recorder := r } name).span = 0 := by
      simp only [position, List.lookup_cons, List.lookup_nil]
      split <;> rfl
    exact absurd hzero hspan
  spans _ hopen := nomatch hopen
  allowed _ hopen := nomatch hopen
  apart _ _ hopen := nomatch hopen

theorem handed_concat (s : Session) (steps : List Step) (st : Step) :
    s.handed (steps ++ [st]) = s.handed steps ++ ((s.run steps).handed? st).toList := by
  induction steps generalizing s with
  | nil => exact List.append_nil _
  | cons st' steps ih =>
      rw [List.cons_append, handed, ih, handed, List.append_assoc]
      rfl

theorem numbered_append_filter (es : List Event) (x : Option Event) (p : Event → Bool) :
    numbered (es ++ x.toList.filter p) =
      numbered es ++ (x.toList.filter p).map ({ · with seq := es.length + 1 }) := by
  cases x with
  | none => simp
  | some e =>
      cases hp : p e with
      | false => simp [hp]
      | true => simp [hp, numbered_concat]

/-- The log that a new tracer has after a program tells of its spans in order. -/
theorem tracks_run {r : Recorder} (hclocks : r.StampsClocks) {steps : List Step}
    (hraw : ∀ e, Step.emit e ∉ steps) :
    Tracks (Session.run { recorder := r } steps)
      (numbered (Session.kept { recorder := r } steps)) := by
  induction steps using List.reverseRecOn with
  | nil => exact tracks_new r
  | append_singleton steps st ih =>
      have hsteps := ih fun e he => hraw e (List.mem_append_left _ he)
      have hst : ∀ e, st ≠ .emit e := by
        rintro e rfl
        exact hraw e (List.mem_append_right _ (List.mem_singleton_self _))
      have hstep := hsteps.step (stampsClocks_run (s := { recorder := r }) hclocks steps) hst
      rw [Tracks.stored, level_run, length_numbered] at hstep
      rw [kept, handed_concat, List.filter_append, numbered_append_filter, run, List.foldl_append]
      exact hstep

end Session

/-- The events that a tracer keeps of a program are disciplined: `Tracer.Stores` says that the new
tracer stored them, under the numbers that they have here. -/
theorem spans_disciplined {r : Recorder} (hclocks : r.StampsClocks) (hnew : r.tracer.Stores [])
    {steps : List Step} (hraw : ∀ e, Step.emit e ∉ steps) :
    let s : Session := { recorder := r }
    (s.run steps).recorder.tracer.Stores (s.kept steps) ∧
      IsDisciplined (numbered (s.kept steps)) := by
  intro s
  have hstores := Session.stores_run (s := s) hnew steps
  rw [List.nil_append] at hstores
  exact ⟨hstores, (Session.tracks_run hclocks hraw).disciplined⟩

/-- The outer span is closed before the inner one and once more after it; the last one stays
open. -/
def looseSpans : List Step :=
  [.start [] (bytes "a") .pass (bytes "review"),
    .start (bytes "a") (bytes "b") .file (bytes "f.cpp"), .finish (bytes "a") [],
    .point (bytes "b") .rule (bytes "CPP1001") [], .set (bytes "b") (bytes "size") (bytes "1"),
    .finish (bytes "b") [], .finish (bytes "a") [],
    .start (bytes "a") (bytes "c") .file (bytes "g.cpp")]

theorem spans_disciplined_loose :
    IsDisciplined (numbered (Session.kept { recorder := ringRecorder .debug } looseSpans)) ∧
      (numbered (Session.kept { recorder := ringRecorder .debug } looseSpans)).map
        (fun e => (e.seq, e.kind.name, e.span, e.parent)) =
        [(1, "begin", 1, 0), (2, "begin", 2, 1), (3, "end", 1, 0), (4, "point", 0, 2),
          (5, "end", 2, 1), (6, "begin", 3, 1)] := by
  refine ⟨(@spans_disciplined (ringRecorder .debug) ?_ ?_ looseSpans ?_).2, by decide⟩
  · exact fun e => ⟨e.time, e.elapsed, rfl⟩
  · exact Ring.stores_make ..
  · intro e he
    simp [looseSpans] at he

end LineReview.Trace
