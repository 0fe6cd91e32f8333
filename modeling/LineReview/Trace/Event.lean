import LineReview.Text.Case
import LineReview.Text.Quoted
import LineReview.Time.Duration
import LineReview.Time.Instant

/-!
# Trace events

A trace is a list of events. Spans have a begin and an end event, points have
one, and heartbeats show that a run is still going. The scope of an event
tells how fine-grained it is; the level of a trace tells down to which scope
events are kept. Failures are kept at every level except off.
-/

namespace LineReview.Trace

structure Kind where
  number : UInt8
deriving DecidableEq, Repr

namespace Kind

def start : Kind := ⟨1⟩
def finish : Kind := ⟨2⟩
def point : Kind := ⟨3⟩
def heartbeat : Kind := ⟨4⟩

def name (k : Kind) : String :=
  match k.number with
  | 1 => "begin"
  | 2 => "end"
  | 3 => "point"
  | 4 => "heartbeat"
  | _ => "unknown"

end Kind

/-- Granularity of an event; coarser scopes have smaller numbers. -/
structure Scope where
  number : UInt8
deriving DecidableEq, Repr

namespace Scope

/-- One check, or one rescan. -/
def run : Scope := ⟨1⟩
/-- The review of a whole tree. -/
def pass : Scope := ⟨2⟩
/-- The review of one file. -/
def file : Scope := ⟨3⟩
/-- One diagnostic. -/
def rule : Scope := ⟨4⟩

def name (s : Scope) : String :=
  match s.number with
  | 1 => "run"
  | 2 => "pass"
  | 3 => "file"
  | 4 => "rule"
  | _ => "unknown"

end Scope

structure Level where
  number : UInt8
deriving DecidableEq, Repr

namespace Level

def off : Level := ⟨0⟩
/-- Failures only. -/
def error : Level := ⟨1⟩
/-- Runs and passes as well. -/
def phase : Level := ⟨2⟩
/-- Files as well. -/
def detail : Level := ⟨3⟩
/-- Diagnostics as well. -/
def debug : Level := ⟨4⟩

def names : List String := ["off", "error", "phase", "detail", "debug"]

def name (l : Level) : String := names.getD l.number.toNat "unknown"

/-- The finest scope that is kept, or zero when none is. -/
def finest (l : Level) : UInt8 :=
  match l.number with
  | 2 => 2
  | 3 => 3
  | 4 => 4
  | _ => 0

def allows (l : Level) (s : Scope) : Bool := s.number != 0 && s.number ≤ l.finest

def isOn (l : Level) : Bool := l.number != 0

/-- Reads the name of a level in any case. -/
def parse? (t : Text) : Option Level :=
  (names.findIdx? fun n => Text.foldWord t == bytes n).map fun i => ⟨i.toUInt8⟩

def unknownMessage (t : Text) : Text :=
  bytes "invalid trace level " ++ Text.quoted t ++ bytes " (expected off|error|phase|detail|debug)"

end Level

structure Event where
  time : Instant := {}
  /-- Number in the order of storage; the tracer sets it. -/
  seq : Nat := 0
  kind : Kind
  scope : Scope
  /-- Identifier of the span that begins or ends, or zero. -/
  span : Nat := 0
  /-- Identifier of the enclosing span, or zero. -/
  parent : Nat := 0
  name : Text
  detail : Text := []
  elapsed : Duration := ⟨0⟩
  fields : List (Text × Text) := []
  failure : Bool := false
deriving DecidableEq, Repr

/-- Sets a field, in place of an earlier value. -/
def setField (key value : Text) : List (Text × Text) → List (Text × Text)
  | [] => [(key, value)]
  | (k, v) :: r => if k = key then (k, value) :: r else (k, v) :: setField key value r

def sortedFields (fs : List (Text × Text)) : List (Text × Text) :=
  fs.mergeSort fun a b => Text.atMost a.1 b.1

def Level.keeps (l : Level) (e : Event) : Bool :=
  l.isOn && (e.kind == .heartbeat || e.failure || l.allows e.scope)

/-- The `n`-th sign of life of a run, with the number of its threads and the size of its heap. -/
def beat (n : Nat) (threads heap : Text) : Event :=
  { kind := .heartbeat, scope := .run, name := bytes "heartbeat",
    detail := bytes "#" ++ Text.decimal n,
    fields := [(bytes "goroutines", threads), (bytes "heap_kb", heap)] }

/-- Heartbeats are sent when something is traced and the interval is positive. -/
def beats (l : Level) (interval : Duration) : Bool := l.isOn && 0 < interval.nanoseconds

end LineReview.Trace
