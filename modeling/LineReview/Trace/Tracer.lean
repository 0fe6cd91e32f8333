import LineReview.Trace.Format

/-!
# Tracers

A tracer numbers the events that its level keeps. A stream encodes them as
they come and passes the text on when its buffer is full or when it is closed;
a ring keeps the latest events in a buffer of fixed size and encodes them when
it is closed. What has been passed on so far is the tracer's output.
-/

namespace LineReview.Trace

def bufferSize : Nat := 4096

structure Stream where
  level : Level
  format : Format
  seq : Nat := 0
  /-- Text that was not passed on yet. -/
  pending : Text := []
  output : Text := []
  isOpen : Bool := true
deriving DecidableEq, Repr

namespace Stream

/-- Buffers a text. A full buffer is passed on; what then still does not fit goes straight through. -/
def buffer (s : Stream) (t : Text) : Stream :=
  let room := bufferSize - s.pending.length
  if t.length ≤ room then { s with pending := s.pending ++ t }
  else if s.pending = [] then { s with output := s.output ++ t }
  else
    let rest := t.drop room
    let s := { s with output := s.output ++ s.pending ++ t.take room, pending := [] }
    if rest.length ≤ bufferSize then { s with pending := rest }
    else { s with output := s.output ++ rest }

def emit (s : Stream) (e : Event) : Stream :=
  if s.level.keeps e then
    { s with seq := s.seq + 1 }.buffer ({ e with seq := s.seq + 1 }.encode s.format)
  else s

/-- Passes on what is pending, once. -/
def close (s : Stream) : Stream :=
  if s.isOpen then { s with output := s.output ++ s.pending, pending := [], isOpen := false } else s

end Stream

def standardRingSize : Nat := 4096

structure Ring where
  level : Level
  format : Format
  /-- Number of events the ring can hold. -/
  capacity : Nat
  cells : Array Event := #[]
  /-- Events kept so far, also those that were overwritten. -/
  stored : Nat := 0
  output : Text := []
  /-- There is a destination that was not written to yet. -/
  isOpen : Bool := true
deriving DecidableEq, Repr

namespace Ring

/-- A ring of the given size; a size that is not positive means the standard one. -/
def make (level : Level) (format : Format) (size : Int) (hasDestination : Bool) : Ring :=
  { level, format, isOpen := hasDestination
    capacity := if size ≤ 0 then standardRingSize else size.toNat }

/-- Numbers and stores an event that the level keeps, over the oldest one when the ring is full. -/
def emit (r : Ring) (e : Event) : Ring :=
  if r.level.keeps e then
    let e := { e with seq := r.stored + 1 }
    { r with
      stored := r.stored + 1
      cells :=
        if r.cells.size < r.capacity then r.cells.push e
        else r.cells.setIfInBounds (r.stored % r.capacity) e }
  else r

/-- The events in the ring, the oldest first. -/
def events (r : Ring) : List Event :=
  let cells := r.cells.toList
  if cells.length < r.capacity then cells
  else
    let first := r.stored % cells.length
    cells.drop first ++ cells.take first

def close (r : Ring) : Ring :=
  if r.isOpen then
    { r with output := r.output ++ r.events.flatMap (·.encode r.format), isOpen := false }
  else r

end Ring

inductive Tracer where
  | none
  | stream (s : Stream)
  | ring (r : Ring)
deriving DecidableEq, Repr

namespace Tracer

def level : Tracer → Level
  | none => .off
  | stream s => s.level
  | ring r => r.level

def isOn (t : Tracer) : Bool := t.level.isOn

def nextSeq : Tracer → Nat
  | none => 0
  | stream s => s.seq + 1
  | ring r => r.stored + 1

def emit (e : Event) : Tracer → Tracer
  | none => none
  | stream s => stream (s.emit e)
  | ring r => ring (r.emit e)

def close : Tracer → Tracer
  | none => none
  | stream s => stream s.close
  | ring r => ring r.close

def output : Tracer → Text
  | none => []
  | stream s => s.output
  | ring r => r.output

def events : Tracer → List Event
  | ring r => r.events
  | _ => []

end Tracer

inductive Mode where
  | stream
  | ring
deriving DecidableEq, Repr

namespace Mode

def parse? (t : Text) : Option Mode :=
  let w := Text.lowerWord t
  if w = bytes "stream" then some stream else if w = bytes "ring" then some ring else none

def unknownMessage (t : Text) : Text :=
  bytes "invalid trace mode " ++ Text.quoted t ++ bytes " (expected stream|ring)"

end Mode

/-- The tracer for a destination; nothing is traced at level off. -/
def Tracer.make (level : Level) (mode : Mode) (path : Text) (ringSize : Int) : Tracer :=
  if !level.isOn then .none
  else match mode with
    | .stream => .stream { level, format := .ofPath path }
    | .ring => .ring (.make level (.ofPath path) ringSize true)

end LineReview.Trace
