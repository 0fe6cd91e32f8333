import LineReview.Trace.Span
import Mathlib.Data.List.Basic

/-!
# Events that a trace keeps

What is traced reaches the tracer as a list of events, and the tracer passes over
those that its level does not keep. This module says which event each operation
hands over, and what a tracer is after a list of them. Readings of clocks are put
on an event on its way, and on nothing else.
-/

namespace LineReview.Trace

/-! ## Levels -/

namespace Level

theorem eq_of_number_le {l : Level} (h : l.number ≤ 4) :
    l = .off ∨ l = .error ∨ l = .phase ∨ l = .detail ∨ l = .debug := by
  obtain ⟨n⟩ := l
  have hn : n.toNat ≤ 4 := UInt8.le_iff_toNat_le.mp h
  rw [← UInt8.ofNat_toNat (x := n)]
  generalize n.toNat = k at hn
  obtain rfl | rfl | rfl | rfl | rfl : k = 0 ∨ k = 1 ∨ k = 2 ∨ k = 3 ∨ k = 4 := by omega
  all_goals decide

theorem finest_mono {l l' : Level} (h : l.number ≤ l'.number) (h' : l'.number ≤ 4) :
    l.finest ≤ l'.finest := by
  rcases eq_of_number_le (UInt8.le_trans h h') with rfl | rfl | rfl | rfl | rfl <;>
    rcases eq_of_number_le h' with rfl | rfl | rfl | rfl | rfl <;>
    revert h <;> decide

theorem isOn_mono {l l' : Level} (h : l.number ≤ l'.number) (hon : l.isOn = true) :
    l'.isOn = true := by
  rw [isOn, bne_iff_ne] at *
  intro hzero
  rw [hzero] at h
  exact hon (UInt8.le_zero_iff.mp h)

theorem allows_mono {l l' : Level} {s : Scope} (h : l.number ≤ l'.number) (h' : l'.number ≤ 4)
    (hs : l.allows s = true) : l'.allows s = true := by
  rw [allows, Bool.and_eq_true, decide_eq_true_eq] at *
  exact ⟨hs.1, UInt8.le_trans hs.2 (finest_mono h h')⟩

/-- A level that allows any scope keeps something. -/
theorem isOn_of_allows {l : Level} {s : Scope} (hs : l.allows s = true) : l.isOn = true := by
  by_contra hoff
  have hzero : l.number = 0 := by simpa [isOn] using hoff
  simp [allows, finest, hzero] at hs

theorem keeps_mono {l l' : Level} {e : Event} (h : l.number ≤ l'.number) (h' : l'.number ≤ 4)
    (he : l.keeps e = true) : l'.keeps e = true := by
  simp only [keeps, Bool.and_eq_true, Bool.or_eq_true] at *
  exact ⟨isOn_mono h he.1, he.2.imp_right (allows_mono h h')⟩

/-- Heartbeats and failures apart, the scope of an event decides. -/
theorem keeps_eq_allows {l : Level} {e : Event} (hkind : e.kind ≠ .heartbeat)
    (hfailure : e.failure = false) : l.keeps e = l.allows e.scope := by
  cases h : l.allows e.scope with
  | false => simp [keeps, h, hkind, hfailure]
  | true => simp [keeps, h, isOn_of_allows h]

end Level

/-! ## Tracers -/

namespace Tracer

def emitAll (t : Tracer) (es : List Event) : Tracer := es.foldl (fun t e => t.emit e) t

@[simp] theorem emitAll_nil (t : Tracer) : t.emitAll [] = t := rfl

@[simp] theorem emitAll_cons (t : Tracer) (e : Event) (es : List Event) :
    t.emitAll (e :: es) = (t.emit e).emitAll es := rfl

theorem emitAll_append (t : Tracer) (es es' : List Event) :
    t.emitAll (es ++ es') = (t.emitAll es).emitAll es' := List.foldl_append

@[simp] theorem level_emit (t : Tracer) (e : Event) : (t.emit e).level = t.level := by
  cases t with
  | none => rfl
  | stream s =>
      simp only [emit, level, Stream.emit]
      split
      · simp only [Stream.buffer]
        split <;> try split <;> try split
        all_goals rfl
      · rfl
  | ring r =>
      simp only [emit, level, Ring.emit]
      split <;> rfl

@[simp] theorem level_emitAll (t : Tracer) (es : List Event) :
    (t.emitAll es).level = t.level := by
  induction es generalizing t with
  | nil => rfl
  | cons e es ih => rw [emitAll_cons, ih, level_emit]

theorem emit_of_not_keeps {t : Tracer} {e : Event} (h : ¬ t.level.keeps e = true) :
    t.emit e = t := by
  cases t with
  | none => rfl
  | stream s => exact congrArg stream (if_neg h)
  | ring r => exact congrArg ring (if_neg h)

/-- Events that the level does not keep leave no mark. -/
theorem emitAll_filter (t : Tracer) (es : List Event) :
    t.emitAll (es.filter t.level.keeps) = t.emitAll es := by
  induction es generalizing t with
  | nil => rfl
  | cons e es ih =>
      have hrest := ih (t.emit e)
      rw [level_emit] at hrest
      by_cases hkeeps : t.level.keeps e = true
      · rw [List.filter_cons_of_pos hkeeps, emitAll_cons, emitAll_cons, hrest]
      · rw [List.filter_cons_of_neg hkeeps, emitAll_cons, ← hrest, emit_of_not_keeps hkeeps]

end Tracer

/-! ## Operations -/

/-- What an event says, apart from clock readings and from numbers that depend on what else is
traced. -/
def Event.content (e : Event) : Kind × Scope × Text × Text × List (Text × Text) × Bool :=
  (e.kind, e.scope, e.name, e.detail, e.fields, e.failure)

theorem Level.keeps_congr {e e' : Event} (l : Level) (h : e.content = e'.content) :
    l.keeps e = l.keeps e' := by
  simp only [Event.content, Prod.mk.injEq] at h
  simp only [keeps, h]

namespace Recorder

/-- Events get clock readings, and are else handed on as they are. -/
def StampsClocks (r : Recorder) : Prop :=
  ∀ e, ∃ time elapsed, r.stamp e = { e with time, elapsed }

theorem StampsClocks.content {r : Recorder} (h : r.StampsClocks) (e : Event) :
    (r.stamp e).content = e.content := by
  obtain ⟨time, elapsed, heq⟩ := h e
  rw [heq]
  rfl

theorem StampsClocks.parent {r : Recorder} (h : r.StampsClocks) (e : Event) :
    (r.stamp e).parent = e.parent := by
  obtain ⟨time, elapsed, heq⟩ := h e
  rw [heq]

def beginning (r : Recorder) (p : Position) (scope : Scope) (name : Text) : Event :=
  { kind := .start, scope, span := r.lastSpan + 1, parent := p.span, name }

def ending (s : Span) (detail : Text) : Event :=
  { kind := .finish, scope := s.scope, span := s.id, parent := s.parent, name := s.name, detail,
    fields := s.fields }

def instant (p : Position) (scope : Scope) (name detail : Text) : Event :=
  { kind := .point, scope, parent := p.span, name, detail }

def failing (p : Position) (scope : Scope) (name reason : Text) : Event :=
  { kind := .point, scope, parent := p.span, name, detail := reason, failure := true }

variable {r : Recorder} {p : Position} {scope : Scope} {name detail : Text} {s : Span}

@[simp] theorem keeps_beginning (l : Level) :
    l.keeps (r.beginning p scope name) = l.allows scope :=
  Level.keeps_eq_allows (e := r.beginning p scope name) (show Kind.start ≠ .heartbeat by decide) rfl

@[simp] theorem keeps_ending (l : Level) : l.keeps (ending s detail) = l.allows s.scope :=
  Level.keeps_eq_allows (e := ending s detail) (show Kind.finish ≠ .heartbeat by decide) rfl

@[simp] theorem keeps_instant (l : Level) :
    l.keeps (instant p scope name detail) = l.allows scope :=
  Level.keeps_eq_allows (e := instant p scope name detail)
    (show Kind.point ≠ .heartbeat by decide) rfl

@[simp] theorem keeps_failing (l : Level) : l.keeps (failing p scope name detail) = l.isOn := by
  simp [Level.keeps, failing]

/-- Nothing is allowed outside a trace. -/
theorem allows_levelAt :
    (r.levelAt p).allows scope = true ↔ p.isTraced = true ∧ r.tracer.level.allows scope = true := by
  rw [levelAt]
  split
  case isTrue h => simp [h]
  case isFalse h => simp [h, Level.allows, Level.finest, Level.off]

theorem isOn_levelAt :
    (r.levelAt p).isOn = true ↔ p.isTraced = true ∧ r.tracer.level.isOn = true := by
  rw [levelAt]
  split
  case isTrue h => simp [h]
  case isFalse h => simp [h, Level.isOn, Level.off]

theorem start_of_allows (h : (r.levelAt p).allows scope = true) :
    r.start p scope name =
      ({ r with lastSpan := r.lastSpan + 1,
                tracer := r.tracer.emit (r.stamp (r.beginning p scope name)) },
        { p with span := r.lastSpan + 1 },
        { id := r.lastSpan + 1, parent := p.span, scope, name }) := if_pos h

theorem start_of_not_allows (h : ¬ (r.levelAt p).allows scope = true) :
    r.start p scope name = (r, p, {}) := if_neg h

theorem finish_of_open (h : s.isOpen = true) :
    r.finish s detail = (r.emit (ending s detail), {}) := if_pos h

theorem finish_of_not_open (h : ¬ s.isOpen = true) : r.finish s detail = (r, s) := if_neg h

theorem point_of_allows (h : (r.levelAt p).allows scope = true) :
    r.point p scope name detail = r.emit (instant p scope name detail) := if_pos h

theorem fail_of_isOn (h : (r.levelAt p).isOn = true) :
    r.fail p scope name detail = r.emit (failing p scope name detail) := if_pos h

/-- What a recorder is after some events, which get their clock readings on the way. The spans that
they open are numbered on from those before. -/
structure Records (r : Recorder) (es : List Event) (r' : Recorder) : Prop where
  tracer : r'.tracer = r.tracer.emitAll (es.map r.stamp)
  stamp : r'.stamp = r.stamp
  opened : ∃ n, r'.lastSpan = r.lastSpan + n ∧
    (es.filter (·.kind = .start)).map (·.span) = List.range' (r.lastSpan + 1) n

namespace Records

theorem refl (r : Recorder) : r.Records [] r := ⟨rfl, rfl, 0, rfl, rfl⟩

theorem trans {r r' r'' : Recorder} {es es' : List Event} (h : r.Records es r')
    (h' : r'.Records es' r'') : r.Records (es ++ es') r'' := by
  obtain ⟨n, hlast, hopened⟩ := h.opened
  obtain ⟨m, hlast', hopened'⟩ := h'.opened
  refine ⟨?_, h'.stamp.trans h.stamp, n + m, by omega, ?_⟩
  · rw [h'.tracer, h.tracer, h.stamp, List.map_append, Tracer.emitAll_append]
  · rw [List.filter_append, List.map_append, hopened, hopened', hlast, Nat.add_right_comm,
      List.range'_append_1]

theorem level {es : List Event} {r' : Recorder} (h : r.Records es r') :
    r'.tracer.level = r.tracer.level := by
  rw [h.tracer, Tracer.level_emitAll]

/-- No two of the spans have the same number. -/
theorem nodup {es : List Event} {r' : Recorder} (h : r.Records es r') :
    ((es.filter (·.kind = .start)).map (·.span)).Nodup := by
  obtain ⟨n, _, hopened⟩ := h.opened
  rw [hopened]
  exact List.nodup_range'

end Records

theorem records_start (h : (r.levelAt p).allows scope = true) :
    r.Records [r.beginning p scope name] (r.start p scope name).1 := by
  rw [start_of_allows h]
  exact ⟨rfl, rfl, 1, rfl, rfl⟩

theorem records_emit {e : Event} (h : e.kind ≠ .start) : r.Records [e] (r.emit e) :=
  ⟨rfl, rfl, 0, rfl, by simp [h]⟩

end Recorder

end LineReview.Trace
