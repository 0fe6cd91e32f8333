import LineReview.Proofs.Trace.Storage
import Mathlib.Data.List.Induction

/-!
# Levels are projections

A program traced at two levels opens different spans: at the coarser level some of
them are inert, and what is traced below those moves up to the next span around
them. That is the only difference. The coarser trace is the finer one without the
events that the coarser level does not keep, and at every level an event's parent
is the innermost span around it that the level shows.

Which openings are around an event is a matter of the program alone: `Nesting`
follows the contexts of a program without asking for a level. An opening is known
by the program that ends with it, and `Opening.id` is the identifier that it got.
-/

namespace LineReview.Trace

namespace Session

/-! ## What a program hands to its tracer -/

/-- The event that a step hands to the tracer. -/
def handed? (s : Session) : Step → Option Event
  | .emit e => some e
  | .start from_ _ scope title =>
    let p := s.position from_
    if (s.recorder.levelAt p).allows scope then
      some (s.recorder.stamp (s.recorder.beginning p scope title))
    else none
  | .finish name detail =>
    if (s.span name).isOpen then some (s.recorder.stamp (Recorder.ending (s.span name) detail))
    else none
  | .point from_ scope title detail =>
    let p := s.position from_
    if (s.recorder.levelAt p).allows scope then
      some (s.recorder.stamp (Recorder.instant p scope title detail))
    else none
  | .fail from_ scope title (some m) =>
    let p := s.position from_
    if (s.recorder.levelAt p).isOn then
      some (s.recorder.stamp (Recorder.failing p scope title m))
    else none
  | .attach .. | .set .. | .fail _ _ _ none => none

def handed (s : Session) : List Step → List Event
  | [] => []
  | st :: rest => (s.handed? st).toList ++ (s.step st).handed rest

/-- The events that the tracer keeps while a program runs. -/
def kept (s : Session) (steps : List Step) : List Event :=
  (s.handed steps).filter s.recorder.tracer.level.keeps

theorem step_recorder (s : Session) (st : Step) :
    (s.step st).recorder.tracer = s.recorder.tracer.emitAll (s.handed? st).toList ∧
      (s.step st).recorder.stamp = s.recorder.stamp := by
  cases st with
  | emit e => exact ⟨rfl, rfl⟩
  | attach from_ name => exact ⟨rfl, rfl⟩
  | start from_ name scope title =>
      simp only [step, handed?]
      split
      case isTrue h => simp [Recorder.start_of_allows h]
      case isFalse h => simp [Recorder.start_of_not_allows h]
  | set name key value => exact ⟨rfl, rfl⟩
  | finish name detail =>
      simp only [step, handed?]
      split
      case isTrue h => simp [Recorder.finish_of_open h, Recorder.emit]
      case isFalse h => simp [Recorder.finish_of_not_open h]
  | point from_ scope title detail =>
      simp only [step, handed?, Recorder.point]
      split <;> exact ⟨rfl, rfl⟩
  | fail from_ scope title reason =>
      cases reason with
      | none => exact ⟨rfl, rfl⟩
      | some m =>
          simp only [step, handed?, Recorder.fail]
          split <;> exact ⟨rfl, rfl⟩

@[simp] theorem level_step (s : Session) (st : Step) :
    (s.step st).recorder.tracer.level = s.recorder.tracer.level := by
  rw [(s.step_recorder st).1, Tracer.level_emitAll]

theorem level_run (s : Session) (steps : List Step) :
    (s.run steps).recorder.tracer.level = s.recorder.tracer.level := by
  induction steps generalizing s with
  | nil => rfl
  | cons st steps ih => exact (ih (s.step st)).trans (s.level_step st)

theorem stampsClocks_step {s : Session} (h : s.recorder.StampsClocks) (st : Step) :
    (s.step st).recorder.StampsClocks := by
  rw [Recorder.StampsClocks, (s.step_recorder st).2]
  exact h

theorem stampsClocks_run {s : Session} (h : s.recorder.StampsClocks) (steps : List Step) :
    (s.run steps).recorder.StampsClocks := by
  induction steps generalizing s with
  | nil => exact h
  | cons st steps ih => exact ih (stampsClocks_step h st)

/-- A tracer shows the events that it keeps, and nothing else that happens. -/
theorem tracer_run (s : Session) (steps : List Step) :
    (s.run steps).recorder.tracer = s.recorder.tracer.emitAll (s.kept steps) := by
  rw [kept, Tracer.emitAll_filter]
  induction steps generalizing s with
  | nil => rfl
  | cons st steps ih =>
      rw [handed, Tracer.emitAll_append, ← (s.step_recorder st).1]
      exact ih (s.step st)

theorem filter_kept (s : Session) (steps : List Step) :
    (s.kept steps).filter s.recorder.tracer.level.keeps = s.kept steps := by
  rw [kept, List.filter_filter]
  simp only [Bool.and_self]

/-- The tracer stores what it keeps behind what it has stored before. -/
theorem stores_run {s : Session} {stored : List Event} (h : s.recorder.tracer.Stores stored)
    (steps : List Step) : (s.run steps).recorder.tracer.Stores (stored ++ s.kept steps) := by
  have hstores := h.emitAll (s.kept steps)
  rwa [← s.tracer_run steps, s.filter_kept] at hstores

/-! ## Names -/

theorem lookup_rebind {α : Type} (name key : Text) (a : α) (l : List (Text × α)) :
    (rebind name a l).lookup key = if key = name then some a else l.lookup key := by
  rw [rebind, List.lookup_cons]
  by_cases h : key = name
  · simp [h]
  · rw [if_neg h, beq_false_of_ne h]

theorem kept_cons (s : Session) (st : Step) (steps : List Step) :
    s.kept (st :: steps) =
      (s.handed? st).toList.filter s.recorder.tracer.level.keeps ++ (s.step st).kept steps := by
  rw [kept, kept, handed, List.filter_append, level_step]

end Session

/-! ## Two levels -/

/-- A span as a coarser level has it: inert when the level does not allow its scope. -/
structure Span.Coarsens (l : Level) (x y : Span) : Prop where
  isOpen : x.isOpen = (y.isOpen && l.allows y.scope)
  same : x.isOpen = true → x.scope = y.scope ∧ x.name = y.name ∧ x.fields = y.fields

theorem Span.Coarsens.set {l : Level} {x y : Span} (h : x.Coarsens l y) (key value : Text) :
    (x.set key value).Coarsens l (y.set key value) := by
  obtain ⟨hopen, hsame⟩ := h
  simp only [Span.set]
  by_cases hy : y.isOpen = true
  · by_cases hx : x.isOpen = true
    · obtain ⟨hscope, hname, hfields⟩ := hsame hx
      rw [if_pos hx, if_pos hy]
      exact ⟨hopen, fun _ => ⟨hscope, hname, by rw [hfields]⟩⟩
    · rw [if_neg hx, if_pos hy]
      exact ⟨hopen, fun hx' => absurd hx' hx⟩
  · have hx : ¬ x.isOpen = true := by simp [hopen, hy]
    rw [if_neg hx, if_neg hy]
    exact ⟨hopen, hsame⟩

theorem Span.Coarsens.finish {l : Level} {x y : Span} (h : x.Coarsens l y) (r r' : Recorder)
    (detail : Text) : (r.finish x detail).2.Coarsens l (r'.finish y detail).2 := by
  obtain ⟨hopen, hsame⟩ := h
  by_cases hy : y.isOpen = true
  · rw [Recorder.finish_of_open hy]
    by_cases hx : x.isOpen = true
    · rw [Recorder.finish_of_open hx]
      exact ⟨rfl, nofun⟩
    · rw [Recorder.finish_of_not_open hx]
      exact ⟨by simpa [Span.isOpen] using hx, fun hx' => absurd hx' hx⟩
  · have hx : ¬ x.isOpen = true := by simp [hopen, hy]
    rw [Recorder.finish_of_not_open hx, Recorder.finish_of_not_open hy]
    exact ⟨hopen, hsame⟩

namespace Session

/-- One program at two levels, the first one coarser. -/
structure Coarsens (a b : Session) : Prop where
  level : a.recorder.tracer.level.number ≤ b.recorder.tracer.level.number
  level_le : b.recorder.tracer.level.number ≤ 4
  clocks : a.recorder.StampsClocks ∧ b.recorder.StampsClocks
  traced : ∀ name, (a.position name).isTraced = (b.position name).isTraced
  spans : ∀ name, (a.span name).Coarsens a.recorder.tracer.level (b.span name)

variable {a b : Session}

/-- Where the coarser level allows a scope, the finer one does. -/
theorem Coarsens.allows (h : Coarsens a b) (name : Text) (scope : Scope) :
    (a.recorder.levelAt (a.position name)).allows scope =
      ((b.recorder.levelAt (b.position name)).allows scope &&
        a.recorder.tracer.level.allows scope) := by
  rw [Bool.eq_iff_iff, Bool.and_eq_true, Recorder.allows_levelAt, Recorder.allows_levelAt,
    h.traced name]
  have hmono := Level.allows_mono (s := scope) h.level h.level_le
  tauto

theorem Coarsens.isOn (h : Coarsens a b) (name : Text) :
    (a.recorder.levelAt (a.position name)).isOn =
      ((b.recorder.levelAt (b.position name)).isOn && a.recorder.tracer.level.isOn) := by
  rw [Bool.eq_iff_iff, Bool.and_eq_true, Recorder.isOn_levelAt, Recorder.isOn_levelAt,
    h.traced name]
  have hmono := Level.isOn_mono h.level
  tauto

theorem Coarsens.step (h : Coarsens a b) (st : Step) : Coarsens (a.step st) (b.step st) := by
  have hclocks := h.clocks.imp (stampsClocks_step · st) (stampsClocks_step · st)
  refine ⟨by simpa using h.level, by simpa using h.level_le, hclocks, ?_, ?_⟩
  case refine_1 =>
    intro key
    cases st with
    | emit e => exact h.traced key
    | attach from_ name =>
        simp only [Session.step, position, lookup_rebind]
        split
        · rfl
        · exact h.traced key
    | start from_ name scope title =>
        have hname := h.traced from_
        simp only [Session.step, position, lookup_rebind]
        split
        · simp only [Recorder.start, Option.getD_some]
          split <;> split <;> exact hname
        · exact h.traced key
    | set name key' value => exact h.traced key
    | finish name detail => exact h.traced key
    | point from_ scope title detail => exact h.traced key
    | fail from_ scope title reason => cases reason <;> exact h.traced key
  case refine_2 =>
    intro key
    rw [level_step]
    cases st with
    | emit e => exact h.spans key
    | attach from_ name => exact h.spans key
    | start from_ name scope title =>
        have hallows := h.allows from_ scope
        simp only [Session.step, span, lookup_rebind]
        split
        · simp only [Recorder.start, Option.getD_some]
          by_cases hb : (b.recorder.levelAt (b.position from_)).allows scope = true
          · rw [hb, Bool.true_and] at hallows
            rw [hallows, if_pos hb]
            split
            case isTrue ha => exact ⟨by simp [Span.isOpen, ha], fun _ => ⟨rfl, rfl, rfl⟩⟩
            case isFalse ha => exact ⟨by simp [Span.isOpen, ha], by simp [Span.isOpen]⟩
          · simp only [Bool.not_eq_true] at hb
            rw [hallows, hb]
            exact ⟨rfl, by simp [Span.isOpen]⟩
        · exact h.spans key
    | set name key' value =>
        simp only [Session.step, span, lookup_rebind]
        split
        · exact (h.spans name).set key' value
        · exact h.spans key
    | finish name detail =>
        have hspan := h.spans name
        simp only [Session.step, span, lookup_rebind]
        split
        · exact hspan.finish a.recorder b.recorder detail
        · exact h.spans key
    | point from_ scope title detail => exact h.spans key
    | fail from_ scope title reason => cases reason <;> exact h.spans key

/-- A step hands the same event to both tracers, or one to the finer tracer only, which the
coarser level would not keep. -/
theorem Coarsens.handed_cases (h : Coarsens a b) (st : Step) :
    (∃ e e', a.handed? st = some e ∧ b.handed? st = some e' ∧ e.content = e'.content) ∨
      (a.handed? st = none ∧ ∀ e', b.handed? st = some e' →
        a.recorder.tracer.level.keeps e' = false) := by
  -- Each operation asks for leave first; the coarser level gives it where it keeps the event.
  have hguard : ∀ (g g' : Bool) (e e' : Event),
      g = (g' && a.recorder.tracer.level.keeps e') → (g = true → e.content = e'.content) →
      (∃ x x', (if g then some (a.recorder.stamp e) else none) = some x ∧
        (if g' then some (b.recorder.stamp e') else none) = some x' ∧ x.content = x'.content) ∨
      ((if g then some (a.recorder.stamp e) else none) = none ∧
        ∀ x', (if g' then some (b.recorder.stamp e') else none) = some x' →
          a.recorder.tracer.level.keeps x' = false) := by
    intro g g' e e' hg hcontent
    have hkeeps := a.recorder.tracer.level.keeps_congr (h.clocks.2.content e')
    cases g with
    | true =>
        have hg' : g' = true := (Bool.and_eq_true_iff.mp hg.symm).1
        refine .inl ⟨_, _, rfl, if_pos hg', ?_⟩
        rw [h.clocks.1.content, h.clocks.2.content, hcontent rfl]
    | false =>
        refine .inr ⟨rfl, ?_⟩
        intro x' hx'
        cases g' with
        | true =>
            cases hx'
            rw [hkeeps, hg, Bool.true_and]
        | false => cases hx'
  cases st with
  | emit e => exact .inl ⟨e, e, rfl, rfl, rfl⟩
  | attach from_ name =>
      refine .inr ⟨rfl, ?_⟩
      intro e' he'
      cases he'
  | start from_ name scope title =>
      refine hguard _ _ _ _ ?_ fun _ => rfl
      rw [Recorder.keeps_beginning]
      exact h.allows from_ scope
  | set name key value =>
      refine .inr ⟨rfl, ?_⟩
      intro e' he'
      cases he'
  | finish name detail =>
      obtain ⟨hopen, hsame⟩ := h.spans name
      refine hguard _ _ _ _ ?_ ?_
      · rw [Recorder.keeps_ending]
        exact hopen
      · intro hx
        obtain ⟨hscope, hname, hfields⟩ := hsame hx
        simp only [Event.content, Recorder.ending, hscope, hname, hfields]
  | point from_ scope title detail =>
      refine hguard _ _ _ _ ?_ fun _ => rfl
      rw [Recorder.keeps_instant]
      exact h.allows from_ scope
  | fail from_ scope title reason =>
      cases reason with
      | none =>
          refine .inr ⟨rfl, ?_⟩
          intro e' he'
          cases he'
      | some m =>
          refine hguard _ _ _ _ ?_ fun _ => rfl
          rw [Recorder.keeps_failing]
          exact h.isOn from_

/-- What the coarser level keeps of a program is what it would keep of the finer trace. -/
theorem Coarsens.kept (h : Coarsens a b) (steps : List Step) :
    (a.kept steps).map Event.content =
      ((b.kept steps).filter a.recorder.tracer.level.keeps).map Event.content := by
  induction steps generalizing a b with
  | nil => rfl
  | cons st steps ih =>
      have hrest := ih (h.step st)
      rw [level_step] at hrest
      rw [kept_cons, kept_cons, List.filter_append, List.map_append, List.map_append, hrest]
      congr 1
      rcases h.handed_cases st with ⟨e, e', ha, hb, hcontent⟩ | ⟨ha, hb⟩
      · have hkeeps := a.recorder.tracer.level.keeps_congr hcontent
        have hmono := Level.keeps_mono (e := e') h.level h.level_le
        rw [ha, hb]
        cases hk : a.recorder.tracer.level.keeps e' with
        | true => simp [hkeeps, hk, hmono hk, hcontent]
        | false => simp [hkeeps, hk, List.filter_filter]
      · rw [ha]
        cases hb' : b.handed? st with
        | none => rfl
        | some e' => simp [List.filter_filter, hb e' hb']

end Session

/-! ## Parents -/

/-- An opening of a span: the program up to and with it, the name of the span, and its scope. -/
structure Opening where
  steps : List Step
  name : Text
  scope : Scope

/-- The identifier that an opening got in a program that began from the session. -/
def Opening.id (s : Session) (o : Opening) : Nat := ((s.run o.steps).span o.name).id

/-- The openings around the contexts and the spans of a program, the innermost first. -/
structure Nesting where
  /-- The program so far. -/
  steps : List Step := []
  contexts : List (Text × List Opening) := [([], [])]
  spans : List (Text × List Opening) := []

namespace Nesting

def context (n : Nesting) (name : Text) : List Opening := (n.contexts.lookup name).getD []

def span (n : Nesting) (name : Text) : List Opening := (n.spans.lookup name).getD []

/-- Follows one step. A context that a tracer is attached to has no openings around it. -/
def step (n : Nesting) (st : Step) : Nesting :=
  let steps := n.steps ++ [st]
  match st with
  | .attach _ name => { n with steps, contexts := Session.rebind name [] n.contexts }
  | .start from_ name scope _ =>
    let around := n.context from_
    { steps, contexts := Session.rebind name (⟨steps, name, scope⟩ :: around) n.contexts,
      spans := Session.rebind name around n.spans }
  | _ => { n with steps }

def ofSteps (steps : List Step) : Nesting := steps.foldl step {}

/-- The openings around the event of a step. -/
def around (n : Nesting) : Step → List Opening
  | .start from_ .. | .point from_ .. | .fail from_ .. => n.context from_
  | .finish name _ => n.span name
  | .emit _ | .attach .. | .set .. => []

/-- The identifier of the innermost opening that a session's level allows, or zero. -/
def innermost (s : Session) (os : List Opening) : Nat :=
  ((os.find? fun o => s.recorder.tracer.level.allows o.scope).map (Opening.id s)).getD 0

theorem ofSteps_concat (steps : List Step) (st : Step) :
    ofSteps (steps ++ [st]) = (ofSteps steps).step st := by
  rw [ofSteps, List.foldl_append]
  rfl

theorem steps_ofSteps (steps : List Step) : (ofSteps steps).steps = steps := by
  induction steps using List.reverseRecOn with
  | nil => rfl
  | append_singleton steps st ih =>
      rw [ofSteps_concat]
      cases st <;> simp only [step, ih]

/-- An inert opening is not the innermost one of any context. -/
theorem innermost_cons_of_not_allows {s : Session} {o : Opening} {os : List Opening}
    (h : ¬ s.recorder.tracer.level.allows o.scope = true) :
    innermost s (o :: os) = innermost s os := by
  simp only [innermost, List.find?_cons, h]

theorem innermost_cons_of_allows {s : Session} {o : Opening} {os : List Opening}
    (h : s.recorder.tracer.level.allows o.scope = true) : innermost s (o :: os) = o.id s := by
  simp only [innermost, List.find?_cons, h, Option.map_some, Option.getD_some]

/-- Positions and open spans know the innermost opening around them. -/
structure Agrees (s t : Session) (n : Nesting) : Prop where
  positions : ∀ name, (t.position name).isTraced = true →
    (t.position name).span = innermost s (n.context name)
  spans : ∀ name, (t.span name).isOpen = true → (t.span name).parent = innermost s (n.span name)

/-- The position below a new span, inert or not, knows the innermost opening. -/
theorem innermost_start {s t : Session} {steps : List Step} {os : List Opening}
    {from_ name : Text} {scope : Scope} {title : Text} (hrun : s.run steps = t)
    (hfrom : (t.position from_).isTraced = true → (t.position from_).span = innermost s os)
    (htraced : (t.recorder.start (t.position from_) scope title).2.1.isTraced = true) :
    (t.recorder.start (t.position from_) scope title).2.1.span =
      innermost s (⟨steps ++ [.start from_ name scope title], name, scope⟩ :: os) := by
  have hlevel : t.recorder.tracer.level = s.recorder.tracer.level := hrun ▸ s.level_run steps
  by_cases hallows : (t.recorder.levelAt (t.position from_)).allows scope = true
  · have hscope := hlevel ▸ (Recorder.allows_levelAt.mp hallows).2
    rw [innermost_cons_of_allows hscope, Opening.id, Session.run, List.foldl_append]
    rw [Session.run] at hrun
    simp [hrun, Session.step, Session.span, Session.lookup_rebind,
      Recorder.start_of_allows hallows]
  · rw [Recorder.start_of_not_allows hallows] at htraced ⊢
    have hscope : ¬ s.recorder.tracer.level.allows scope = true := by
      intro hscope
      exact hallows (Recorder.allows_levelAt.mpr ⟨htraced, hlevel ▸ hscope⟩)
    rw [innermost_cons_of_not_allows hscope]
    exact hfrom htraced

theorem agrees_step {s t : Session} {n : Nesting} (hrun : s.run n.steps = t)
    (h : Agrees s t n) (st : Step) : Agrees s (t.step st) (n.step st) := by
  cases st with
  | emit e => exact ⟨h.positions, h.spans⟩
  | attach from_ name =>
      refine ⟨?_, h.spans⟩
      intro key htraced
      simp only [Session.step, Session.position, step, context, Session.lookup_rebind] at htraced ⊢
      split
      · rfl
      · rw [if_neg ‹_›] at htraced
        exact h.positions key htraced
  | start from_ name scope title =>
      have hfrom := h.positions from_
      constructor
      · intro key htraced
        by_cases hkey : key = name
        · subst hkey
          simp only [Session.step, Session.position, step, context, Session.lookup_rebind,
            if_true, Option.getD_some] at htraced ⊢
          exact innermost_start hrun hfrom htraced
        · simp only [Session.step, Session.position, step, context, Session.lookup_rebind,
            if_neg hkey] at htraced ⊢
          exact h.positions key htraced
      · intro key hopen
        by_cases hkey : key = name
        · subst hkey
          simp only [Session.step, Session.span, step, span, Session.lookup_rebind, if_true,
            Option.getD_some, Recorder.start] at hopen ⊢
          split at hopen
          case isTrue hallows =>
            rw [if_pos hallows]
            exact hfrom (Recorder.allows_levelAt.mp hallows).1
          case isFalse => cases hopen
        · simp only [Session.step, Session.span, step, span, Session.lookup_rebind,
            if_neg hkey] at hopen ⊢
          exact h.spans key hopen
  | set name key' value =>
      refine ⟨h.positions, ?_⟩
      intro key hopen
      simp only [Session.step, Session.span, Session.lookup_rebind] at hopen ⊢
      by_cases hkey : key = name
      · subst hkey
        simp only [if_true, Option.getD_some, Span.set] at hopen ⊢
        split
        case isTrue hkept => exact h.spans key hkept
        case isFalse hclosed =>
          rw [if_neg hclosed] at hopen
          exact absurd hopen hclosed
      · simp only [if_neg hkey] at hopen ⊢
        exact h.spans key hopen
  | finish name detail =>
      refine ⟨h.positions, ?_⟩
      intro key hopen
      simp only [Session.step, Session.span, Session.lookup_rebind] at hopen ⊢
      by_cases hkey : key = name
      · subst hkey
        simp only [if_true, Option.getD_some, Recorder.finish] at hopen
        split at hopen
        case isTrue => cases hopen
        case isFalse hclosed => exact absurd hopen hclosed
      · simp only [if_neg hkey] at hopen ⊢
        exact h.spans key hopen
  | point from_ scope title detail => exact ⟨h.positions, h.spans⟩
  | fail from_ scope title reason => cases reason <;> exact ⟨h.positions, h.spans⟩

theorem agrees_run (r : Recorder) (steps : List Step) :
    Agrees { recorder := r } (Session.run { recorder := r } steps) (ofSteps steps) := by
  induction steps using List.reverseRecOn with
  | nil =>
      refine ⟨?_, fun name hopen => nomatch hopen⟩
      intro name htraced
      change ((List.lookup name [([], Position.top)]).getD .outside).span =
        innermost _ ((List.lookup name [([], [])]).getD [])
      simp only [List.lookup_cons, List.lookup_nil]
      split <;> rfl
  | append_singleton steps st ih =>
      rw [ofSteps_concat, Session.run, List.foldl_append]
      exact agrees_step (congrArg _ (steps_ofSteps steps)) ih st

/-- The parent of an event that a step produces is the innermost opening around it. -/
theorem parent_of_handed? {r : Recorder} (hclocks : r.StampsClocks) {steps : List Step}
    {st : Step} {e : Event} (hraw : ∀ raw, st ≠ .emit raw)
    (he : (Session.run { recorder := r } steps).handed? st = some e) :
    e.parent = innermost { recorder := r } ((ofSteps steps).around st) := by
  obtain ⟨hpositions, hspans⟩ := agrees_run r steps
  have hstamp := (Session.stampsClocks_run (s := { recorder := r }) hclocks steps).parent
  cases st with
  | emit raw => exact absurd rfl (hraw raw)
  | attach from_ name => cases he
  | start from_ name scope title =>
      obtain ⟨hallows, ⟨⟩⟩ := Option.ite_none_right_eq_some.mp he
      rw [hstamp]
      exact hpositions from_ (Recorder.allows_levelAt.mp hallows).1
  | set name key value => cases he
  | finish name detail =>
      obtain ⟨hopen, ⟨⟩⟩ := Option.ite_none_right_eq_some.mp he
      rw [hstamp]
      exact hspans name hopen
  | point from_ scope title detail =>
      obtain ⟨hallows, ⟨⟩⟩ := Option.ite_none_right_eq_some.mp he
      rw [hstamp]
      exact hpositions from_ (Recorder.allows_levelAt.mp hallows).1
  | fail from_ scope title reason =>
      cases reason with
      | none => cases he
      | some m =>
          obtain ⟨hon, ⟨⟩⟩ := Option.ite_none_right_eq_some.mp he
          rw [hstamp]
          exact hpositions from_ (Recorder.isOn_levelAt.mp hon).1

end Nesting

theorem Session.coarsens_new {r r' : Recorder}
    (hlevel : r.tracer.level.number ≤ r'.tracer.level.number)
    (hdebug : r'.tracer.level.number ≤ 4) (hclocks : r.StampsClocks) (hclocks' : r'.StampsClocks) :
    Coarsens { recorder := r } { recorder := r' } where
  level := hlevel
  level_le := hdebug
  clocks := ⟨hclocks, hclocks'⟩
  traced _ := rfl
  spans _ := ⟨rfl, nofun⟩

/-- One program at two levels, from off to debug. The tracer stores what was kept, and nothing else;
the coarser level keeps what it would keep of the finer trace; and at both levels the parent of an
event, unless the program made up the event itself, is the innermost opening around it that the level
allows. -/
theorem levels_project {r r' : Recorder}
    (hlevel : r.tracer.level.number ≤ r'.tracer.level.number)
    (hdebug : r'.tracer.level.number ≤ 4) (hclocks : r.StampsClocks) (hclocks' : r'.StampsClocks)
    (steps : List Step) :
    let coarse : Session := { recorder := r }
    let fine : Session := { recorder := r' }
    (coarse.kept steps).map Event.content =
        ((fine.kept steps).filter r.tracer.level.keeps).map Event.content ∧
      ∀ s ∈ [coarse, fine],
        (s.run steps).recorder.tracer = s.recorder.tracer.emitAll (s.kept steps) ∧
          (∀ stored, s.recorder.tracer.Stores stored →
            (s.run steps).recorder.tracer.Stores (stored ++ s.kept steps)) ∧
          ∀ before st e, before ++ [st] <+: steps → (∀ raw, st ≠ .emit raw) →
            (s.run before).handed? st = some e →
            e.parent = Nesting.innermost s ((Nesting.ofSteps before).around st) := by
  intro coarse fine
  refine ⟨(Session.coarsens_new hlevel hdebug hclocks hclocks').kept steps, ?_⟩
  intro s hs
  refine ⟨s.tracer_run steps, fun stored hstored => Session.stores_run hstored steps, ?_⟩
  intro before st e _ hraw he
  rcases List.mem_pair.mp hs with rfl | rfl
  · exact Nesting.parent_of_handed? hclocks hraw he
  · exact Nesting.parent_of_handed? hclocks' hraw he

/-- A failure below a file's span, which is inert at level phase. -/
def nestedFailure : List Step :=
  [.start [] (bytes "a") .pass (bytes "review"), .start (bytes "a") (bytes "b") .file (bytes "f.cpp"),
    .point (bytes "b") .rule (bytes "CPP1001") [], .fail (bytes "b") .file (bytes "f.cpp") (some []),
    .finish (bytes "b") [], .finish (bytes "a") []]

def ringRecorder (l : Level) : Recorder := { tracer := .ring (.make l .text 0 true) }

theorem levels_project_nested :
    (Session.kept { recorder := ringRecorder .phase } nestedFailure).map Event.content =
        ((Session.kept { recorder := ringRecorder .debug } nestedFailure).filter
          Level.phase.keeps).map Event.content ∧
      (Session.kept { recorder := ringRecorder .phase } nestedFailure).map (·.parent) = [0, 1, 0] ∧
      (Session.kept { recorder := ringRecorder .debug } nestedFailure).map (·.parent) =
        [0, 1, 2, 2, 1, 0] := by
  refine ⟨(@levels_project (ringRecorder .phase) (ringRecorder .debug) (by decide)
    (by decide) ?_ ?_ nestedFailure).1, by decide, by decide⟩
  · exact fun e => ⟨e.time, e.elapsed, rfl⟩
  · exact fun e => ⟨e.time, e.elapsed, rfl⟩

end LineReview.Trace
