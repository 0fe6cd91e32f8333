import LineReview.Proofs.Trace.Kept
import Mathlib.Data.List.Induction
import Mathlib.Logic.Function.Iterate

/-!
# What tracers store

The events that a tracer keeps are numbered from one in the order in which they
come; that is the log of the tracer. A stream writes its whole log, late but
unchanged. A ring holds the end of its log, as much as its capacity allows, and
writes what it holds when it is closed for the first time. So a ring shows the
tail of what a stream shows.
-/

namespace LineReview.Trace

/-! ## Numbers -/

/-- Events with the numbers that they get when they are stored one after the other. -/
def numbered (es : List Event) : List Event := es.mapIdx fun i e => { e with seq := i + 1 }

@[simp] theorem numbered_nil : numbered [] = [] := rfl

theorem numbered_concat (es : List Event) (e : Event) :
    numbered (es ++ [e]) = numbered es ++ [{ e with seq := es.length + 1 }] :=
  List.mapIdx_concat

@[simp] theorem length_numbered (es : List Event) : (numbered es).length = es.length :=
  List.length_mapIdx

theorem seq_numbered (es : List Event) :
    (numbered es).map (·.seq) = List.range' 1 es.length := by
  induction es using List.reverseRecOn with
  | nil => rfl
  | append_singleton es e ih =>
      rw [numbered_concat, List.map_append, ih, List.length_append, List.length_singleton,
        List.range'_1_concat, Nat.add_comm 1]
      rfl

/-! ## Streams -/

namespace Stream

/-- The stream has kept exactly these events: their encodings were passed on or are pending. -/
structure Stores (s : Stream) (es : List Event) : Prop where
  seq : s.seq = es.length
  written : s.output ++ s.pending = (numbered es).flatMap (·.encode s.format)

/-- A text that is buffered comes behind all others, and nothing is lost. -/
theorem buffer_eq (s : Stream) (t : Text) :
    ∃ pending output, s.buffer t = { s with pending, output } ∧
      output ++ pending = s.output ++ s.pending ++ t := by
  simp only [buffer]
  split
  · exact ⟨_, _, rfl, (List.append_assoc ..).symm⟩
  split
  case isTrue hempty => exact ⟨_, _, rfl, by rw [hempty, List.append_nil, List.append_nil]⟩
  split
  · exact ⟨_, _, rfl, by rw [List.append_assoc, List.take_append_drop]⟩
  · exact ⟨_, _, rfl, by rw [List.append_nil, List.append_assoc, List.take_append_drop]⟩

theorem Stores.emit {s : Stream} {es : List Event} (h : s.Stores es) (e : Event) :
    (s.emit e).Stores (es ++ [e].filter s.level.keeps) := by
  rw [Stream.emit]
  split
  case isTrue hkeeps =>
    obtain ⟨pending, output, heq, hwritten⟩ :=
      { s with seq := s.seq + 1 }.buffer_eq ({ e with seq := s.seq + 1 }.encode s.format)
    rw [heq, List.filter_singleton, hkeeps, cond_true]
    refine ⟨?_, ?_⟩
    · rw [List.length_append, ← h.seq]
      rfl
    · rw [numbered_concat, List.flatMap_append, ← h.written, ← h.seq, List.flatMap_singleton]
      exact hwritten
  case isFalse hkeeps => simpa [hkeeps] using h

/-- Events change their number and the texts only. -/
theorem foldl_emit_eq (s : Stream) (es : List Event) :
    ∃ seq pending output, es.foldl emit s = { s with seq, pending, output } := by
  induction es generalizing s with
  | nil => exact ⟨_, _, _, rfl⟩
  | cons e es ih =>
      obtain ⟨seq, pending, output, heq⟩ := ih (s.emit e)
      refine ⟨seq, pending, output, heq.trans ?_⟩
      rw [emit]
      split
      · obtain ⟨_, _, hbuffer, _⟩ := buffer_eq { s with seq := s.seq + 1 } _
        rw [hbuffer]
      · rfl

end Stream

/-! ## Rings -/

namespace Ring

/-- The ring has kept exactly these events and holds the latest of them. -/
structure Stores (r : Ring) (es : List Event) : Prop where
  capacity_pos : 0 < r.capacity
  stored : r.stored = es.length
  size : r.cells.size = min r.capacity es.length
  events : r.events = (numbered es).drop (es.length - r.capacity)

/-- What is read behind and before a place, after the value at the place was replaced. -/
theorem drop_append_take_set {α : Type} {l : List α} {i : Nat} (h : i < l.length) (a : α) :
    (l.set i a).drop ((i + 1) % l.length) ++ (l.set i a).take ((i + 1) % l.length) =
      (l.drop i ++ l.take i).tail ++ [a] := by
  obtain ⟨front, x, rest, rfl, rfl⟩ : ∃ front x rest, l = front ++ x :: rest ∧ front.length = i :=
    ⟨l.take i, l[i], l.drop (i + 1), by simp, by simp; omega⟩
  cases rest with
  | nil => simp
  | cons y rest =>
      have hnext : (front.length + 1) % (front ++ x :: y :: rest).length = front.length + 1 :=
        Nat.mod_eq_of_lt (by simp)
      rw [hnext, List.set_append_right _ _ (Nat.le_refl _), List.drop_length_add_append,
        List.take_length_add_append]
      simp

theorem events_of_size_lt {r : Ring} (h : r.cells.size < r.capacity) :
    r.events = r.cells.toList := by
  rw [events, if_pos (by simpa using h)]

theorem events_of_full {r : Ring} (h : r.cells.size = r.capacity) :
    r.events = r.cells.toList.drop (r.stored % r.cells.size) ++
      r.cells.toList.take (r.stored % r.cells.size) := by
  rw [events, if_neg (by simp [h])]
  rfl

/-- While there is room, the ring holds its whole log. -/
theorem Stores.emit_of_room {r : Ring} {es : List Event} (h : r.Stores es)
    (hroom : r.cells.size < r.capacity) (e : Event) :
    Stores { r with stored := r.stored + 1,
                    cells := r.cells.push { e with seq := r.stored + 1 } } (es ++ [e]) := by
  have hsize := h.size
  have hstored := h.stored
  have hcells : r.cells.toList = numbered es := by
    rw [← events_of_size_lt hroom, h.events, Nat.sub_eq_zero_of_le (by omega), List.drop_zero]
  refine ⟨h.capacity_pos, ?_, ?_, ?_⟩
  · rw [List.length_append, hstored]
    rfl
  · simp only [Array.size_push, List.length_append, List.length_singleton]
    omega
  · have hall : (es ++ [e]).length - r.capacity = 0 := by
      rw [List.length_append, List.length_singleton]
      omega
    rw [hall, List.drop_zero, numbered_concat, ← hcells, ← hstored, ← Array.toList_push]
    rcases Nat.lt_or_eq_of_le (Nat.succ_le_of_lt hroom) with hless | hfull
    · exact events_of_size_lt (by simpa using hless)
    · have hwhole : r.stored + 1 = r.cells.size + 1 := by omega
      rw [events_of_full (by simpa using hfull)]
      simp [hwhole]

/-- A full ring gives up its oldest event. -/
theorem Stores.emit_of_full {r : Ring} {es : List Event} (h : r.Stores es)
    (hfull : r.cells.size = r.capacity) (e : Event) :
    Stores { r with stored := r.stored + 1,
                    cells := r.cells.setIfInBounds (r.stored % r.capacity)
                      { e with seq := r.stored + 1 } } (es ++ [e]) := by
  have hpos := h.capacity_pos
  have hsize := h.size
  have hstored := h.stored
  have hplace : r.stored % r.cells.toList.length < r.cells.toList.length :=
    Nat.mod_lt _ (by simpa [hfull] using hpos)
  refine ⟨hpos, ?_, ?_, ?_⟩
  · rw [List.length_append, hstored]
    rfl
  · simp only [Array.size_setIfInBounds, List.length_append, List.length_singleton]
    omega
  · rw [events_of_full (by simpa using hfull)]
    have hevents := h.events
    rw [events_of_full hfull] at hevents
    have hnext := drop_append_take_set hplace { e with seq := r.stored + 1 }
    simp only [Array.length_toList] at hnext
    simp only [Array.toList_setIfInBounds, Array.size_setIfInBounds, ← hfull]
    rw [Nat.mod_add_mod] at hnext
    rw [hnext, hevents, List.tail_drop, numbered_concat, List.length_append, List.length_singleton,
      List.drop_append_of_le_length (by rw [length_numbered]; omega), hstored]
    congr 2
    omega

theorem Stores.emit {r : Ring} {es : List Event} (h : r.Stores es) (e : Event) :
    (r.emit e).Stores (es ++ [e].filter r.level.keeps) := by
  rw [Ring.emit]
  split
  case isTrue hkeeps =>
    rw [List.filter_singleton, hkeeps]
    dsimp only
    split
    case isTrue hroom => exact h.emit_of_room hroom e
    case isFalse hroom =>
      have hfull : r.cells.size = r.capacity := by
        have := h.size
        omega
      exact h.emit_of_full hfull e
  case isFalse hkeeps => simpa [hkeeps] using h

theorem stores_make (level : Level) (format : Format) (size : Int) (hasDestination : Bool) :
    (make level format size hasDestination).Stores [] := by
  refine ⟨?_, rfl, by simp [make], ?_⟩
  · simp only [make, standardRingSize]
    split <;> omega
  · simp [make, events]

/-- Events change the cells and their number only. -/
theorem foldl_emit_eq (r : Ring) (es : List Event) :
    ∃ cells stored, es.foldl emit r = { r with cells, stored } := by
  induction es generalizing r with
  | nil => exact ⟨_, _, rfl⟩
  | cons e es ih =>
      obtain ⟨cells, stored, heq⟩ := ih (r.emit e)
      refine ⟨cells, stored, heq.trans ?_⟩
      rw [emit]
      split <;> rfl

/-- Closing a ring again and again is closing it once. -/
theorem close_iterate (r : Ring) (n : Nat) : close^[n + 1] r = r.close := by
  induction n with
  | zero => rfl
  | succ n ih =>
      rw [Function.iterate_succ_apply', ih]
      cases hopen : r.isOpen <;> simp [close, hopen]

@[simp] theorem events_close (r : Ring) : r.close.events = r.events := by
  rw [close]
  split <;> rfl

end Ring

/-! ## Tracers -/

namespace Tracer

/-- The tracer has kept exactly these events. -/
def Stores : Tracer → List Event → Prop
  | none, es => es = []
  | stream s, es => s.Stores es
  | ring r, es => r.Stores es

theorem Stores.emit {t : Tracer} {es : List Event} (h : t.Stores es) (e : Event) :
    (t.emit e).Stores (es ++ [e].filter t.level.keeps) := by
  cases t with
  | none =>
      have hes : es = [] := h
      subst hes
      exact List.filter_eq_nil_iff.mpr fun _ _ => Bool.false_ne_true
  | stream s => exact Stream.Stores.emit h e
  | ring r => exact Ring.Stores.emit h e

theorem Stores.emitAll {t : Tracer} {es : List Event} (h : t.Stores es) (es' : List Event) :
    (t.emitAll es').Stores (es ++ es'.filter t.level.keeps) := by
  induction es' generalizing t es with
  | nil => simpa using h
  | cons e es' ih =>
      have hrest := ih (h.emit e)
      rwa [level_emit, List.append_assoc, ← List.filter_append] at hrest

/-- Nothing was kept by a tracer that is new. -/
theorem stores_make (level : Level) (mode : Mode) (path : Text) (ringSize : Int) :
    (make level mode path ringSize).Stores [] := by
  simp only [make]
  split
  · rfl
  · cases mode with
    | stream => exact ⟨rfl, rfl⟩
    | ring => exact Ring.stores_make ..

theorem emitAll_stream (s : Stream) (es : List Event) :
    (stream s).emitAll es = stream (es.foldl Stream.emit s) := by
  induction es generalizing s with
  | nil => rfl
  | cons e es ih => exact ih (s.emit e)

theorem emitAll_ring (r : Ring) (es : List Event) :
    (ring r).emitAll es = ring (es.foldl Ring.emit r) := by
  induction es generalizing r with
  | nil => rfl
  | cons e es ih => exact ih (r.emit e)

end Tracer

/-! ## Rings beside streams -/

theorem Stream.output_close {level : Level} {format : Format} (es : List Event) :
    (es.foldl Stream.emit { level, format }).close.output =
      (numbered (es.filter level.keeps)).flatMap (·.encode format) := by
  have hnew : (Tracer.stream { level, format }).Stores [] := ⟨rfl, rfl⟩
  have hstores := hnew.emitAll es
  rw [Tracer.emitAll_stream] at hstores
  obtain ⟨seq, pending, output, hstream⟩ := foldl_emit_eq { level, format } es
  rw [hstream] at hstores ⊢
  exact hstores.written

/-- A ring and a stream get the same events. The ring holds the latest events that were kept, with
the numbers that they have in the log, which the stream writes as a whole. What the ring holds it
writes when it is closed first, and nothing more however often it is closed. -/
theorem Ring.tail_of_stream (level : Level) (format : Format) (size : Int) (hasDestination : Bool)
    (es : List Event) :
    let log := numbered (es.filter level.keeps)
    let capacity := if size ≤ 0 then 4096 else size.toNat
    let count := min capacity log.length
    let tail := log.drop (log.length - count)
    let stream := es.foldl Stream.emit { level, format }
    let ring := es.foldl Ring.emit (.make level format size hasDestination)
    ring.events = tail ∧ tail.map (·.seq) = List.range' (log.length - count + 1) count ∧
      stream.close.output = log.flatMap (·.encode format) ∧ ring.output = [] ∧
      ∀ n, (Ring.close^[n + 1] ring).events = tail ∧
        (Ring.close^[n + 1] ring).output =
          if hasDestination then tail.flatMap (·.encode format) else [] := by
  intro log capacity count tail stream ring
  obtain ⟨cells, stored, hring⟩ := foldl_emit_eq (make level format size hasDestination) es
  have hstores : ring.Stores (es.filter level.keeps) := by
    have hall := Tracer.Stores.emitAll (t := .ring (make level format size hasDestination))
      (stores_make level format size hasDestination) es
    rwa [Tracer.emitAll_ring] at hall
  have hcapacity : ring.capacity = capacity := congrArg Ring.capacity hring
  have hfirst : log.length - count = log.length - capacity := by
    simp only [count]
    omega
  have hevents : ring.events = tail := by
    rw [hstores.events, hcapacity, ← length_numbered]
    exact congrArg log.drop hfirst.symm
  have hclose : ring.close.output =
      if hasDestination then tail.flatMap (·.encode format) else [] := by
    have hopen : ring.isOpen = hasDestination := congrArg Ring.isOpen hring
    have hformat : ring.format = format := congrArg Ring.format hring
    have houtput : ring.output = [] := congrArg Ring.output hring
    rw [close, hopen, hevents, hformat, houtput]
    split <;> simp [houtput]
  refine ⟨hevents, ?_, Stream.output_close es, congrArg Ring.output hring, ?_⟩
  · have hlength : log.length = (es.filter level.keeps).length := length_numbered _
    have hcount : count ≤ log.length := Nat.min_le_right ..
    rw [List.map_drop, seq_numbered, List.drop_range', ← hlength, Nat.mul_one,
      Nat.sub_sub_self hcount, Nat.add_comm 1]
  · intro n
    rw [close_iterate, events_close]
    exact ⟨hevents, hclose⟩

end LineReview.Trace
