import LineReview.Trace.Tracer

/-!
# Spans

Work is traced from a position: whether a tracer is attached, and the
innermost open span. Opening a span gives a new position below it. A span of a
scope that the level does not keep is inert: it leaves the position as it was
and produces no events, so nobody has to ask for the level.
-/

namespace LineReview.Trace

/-- Where in a trace something happens. -/
structure Position where
  isTraced : Bool
  span : Nat := 0
deriving DecidableEq, Repr

def Position.outside : Position := ⟨false, 0⟩

def Position.top : Position := ⟨true, 0⟩

/-- An open span; identifier zero for one that is inert or closed. -/
structure Span where
  id : Nat := 0
  parent : Nat := 0
  scope : Scope := ⟨0⟩
  name : Text := []
  fields : List (Text × Text) := []
deriving DecidableEq, Repr

namespace Span

def isOpen (s : Span) : Bool := s.id != 0

/-- Sets a field of an open span, for its end event. -/
def set (s : Span) (key value : Text) : Span :=
  if s.isOpen then { s with fields := setField key value s.fields } else s

end Span

/-- A tracer and the spans opened so far. Clock readings are not determined by what is traced:
`stamp` puts them on the events. -/
structure Recorder where
  tracer : Tracer := .none
  lastSpan : Nat := 0
  stamp : Event → Event := id

namespace Recorder

def levelAt (r : Recorder) (p : Position) : Level := if p.isTraced then r.tracer.level else .off

def emit (r : Recorder) (e : Event) : Recorder := { r with tracer := r.tracer.emit (r.stamp e) }

def start (r : Recorder) (p : Position) (scope : Scope) (name : Text) :
    Recorder × Position × Span :=
  if (r.levelAt p).allows scope then
    let id := r.lastSpan + 1
    let r := { r with lastSpan := id }
    (r.emit { kind := .start, scope, span := id, parent := p.span, name },
      { p with span := id }, { id, parent := p.span, scope, name })
  else (r, p, {})

/-- Closes a span; a closed one stays closed. -/
def finish (r : Recorder) (s : Span) (detail : Text) : Recorder × Span :=
  if s.isOpen then
    (r.emit { kind := .finish, scope := s.scope, span := s.id, parent := s.parent, name := s.name,
              detail, fields := s.fields }, {})
  else (r, s)

def point (r : Recorder) (p : Position) (scope : Scope) (name detail : Text) : Recorder :=
  if (r.levelAt p).allows scope then
    r.emit { kind := .point, scope, parent := p.span, name, detail }
  else r

/-- Records a failure, at every level except off. -/
def fail (r : Recorder) (p : Position) (scope : Scope) (name reason : Text) : Recorder :=
  if (r.levelAt p).isOn then
    r.emit { kind := .point, scope, parent := p.span, name, detail := reason, failure := true }
  else r

end Recorder

/-- One step of a traced program. Contexts and spans go by names; `from_` is the context that a
step happens in. -/
inductive Step where
  | emit (e : Event)
  | attach (from_ name : Text)
  | start (from_ name : Text) (scope : Scope) (title : Text)
  | set (name key value : Text)
  | finish (name detail : Text)
  | point (from_ : Text) (scope : Scope) (title detail : Text)
  | fail (from_ : Text) (scope : Scope) (title : Text) (reason : Option Text)

structure Session where
  recorder : Recorder
  contexts : List (Text × Position) := [([], .top)]
  spans : List (Text × Span) := []

namespace Session

def rebind (name : Text) (a : α) (l : List (Text × α)) : List (Text × α) := (name, a) :: l

/-- The position of a context; a name that is not bound is outside the trace. -/
def position (s : Session) (name : Text) : Position := (s.contexts.lookup name).getD .outside

def span (s : Session) (name : Text) : Span := (s.spans.lookup name).getD {}

def step (s : Session) : Step → Session
  | .emit e => { s with recorder := { s.recorder with tracer := s.recorder.tracer.emit e } }
  | .attach _ name => { s with contexts := rebind name .top s.contexts }
  | .start from_ name scope title =>
    let (r, p, sp) := s.recorder.start (s.position from_) scope title
    { recorder := r, contexts := rebind name p s.contexts, spans := rebind name sp s.spans }
  | .set name key value => { s with spans := rebind name ((s.span name).set key value) s.spans }
  | .finish name detail =>
    let (r, sp) := s.recorder.finish (s.span name) detail
    { s with recorder := r, spans := rebind name sp s.spans }
  | .point from_ scope title detail =>
    { s with recorder := s.recorder.point (s.position from_) scope title detail }
  | .fail from_ scope title reason =>
    match reason with
    | none => s
    | some m => { s with recorder := s.recorder.fail (s.position from_) scope title m }

def run (s : Session) (steps : List Step) : Session := steps.foldl step s

end Session

end LineReview.Trace
