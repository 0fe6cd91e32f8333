import LineReview.Watch.Loop
import Mathlib.Data.List.DropRight
import Mathlib.Data.List.Induction

/-!
# No change is lost, no scan is invented

The state of a waiting loop is compared with what the loop has received: the signals
of a run, without those that could not be received when they came (`heard`). A signal
that cannot be received changes nothing (`hear_of_not_canHear`), so every order of
signals is covered by looking at the received ones.

`Tells` says what the state tells about the received signals. One more signal keeps it
(`Tells.hear`), and so does a run of any length (`tells_run`). The part that carries
the others is the first: the alarm is set exactly while a relevant change is waiting for
its scan.
-/

namespace LineReview.Watch

namespace Signal

/-- Does the loop scan when it receives the signal? -/
def isTick : Signal → Bool
  | .tick _ => true
  | _ => false

/-- The trouble that is told. -/
def trouble? : Signal → Option Text
  | .trouble m => some m
  | _ => none

/-- How the loop ends when it receives the signal, if it does. -/
def ending? : Signal → Option (Option Text)
  | .changesEnd => some none
  | .cancel => some none
  | .tick (some m) => some (some m)
  | _ => none

theorem ending?_eq_some_iff {s : Signal} {r : Option Text} :
    s.ending? = some r ↔
      ((s = .cancel ∨ s = .changesEnd) ∧ r = none) ∨ ∃ m, s = .tick (some m) ∧ r = some m := by
  cases s with
  | tick failure => cases failure <;> simp [ending?, eq_comm]
  | change _ | trouble _ | troublesEnd | expiry | changesEnd | cancel => simp [ending?, eq_comm]

end Signal

/-- What was received since the last scan. -/
def sinceScan (h : List Signal) : List Signal := h.rtakeWhile fun s => !s.isTick

theorem sinceScan_tick (h : List Signal) (failure : Option Text) :
    sinceScan (h ++ [.tick failure]) = [] :=
  List.rtakeWhile_concat_neg _ _ _ (by simp [Signal.isTick])

theorem mem_sinceScan {h : List Signal} {s t : Signal} (hs : s.isTick = false) :
    t ∈ sinceScan (h ++ [s]) ↔ t ∈ sinceScan h ∨ t = s := by
  rw [sinceScan, List.rtakeWhile_concat_pos _ _ _ (by simp [hs]), List.mem_append,
    List.mem_singleton, sinceScan]

namespace Loop

/-! ## Signals that are received -/

/-- Can the loop receive the signal? The quiet period is over only while the alarm runs. -/
def canHear (l : Loop) : Signal → Bool
  | .change _ => l.isWaiting
  | .trouble _ => l.isWaiting && l.hearsTroubles
  | .troublesEnd => l.isWaiting && l.hearsTroubles
  | .expiry => l.isWaiting && l.alarm == .running
  | .tick _ => l.isWaiting && l.alarm == .expired
  | .changesEnd => l.isWaiting
  | .cancel => l.isWaiting

/-- The signals that the loop receives, in order. -/
def heard (l : Loop) : List Signal → List Signal
  | [] => []
  | s :: ss => (if l.canHear s then [s] else []) ++ heard (l.hear s) ss

theorem isWaiting_of_canHear {l : Loop} {s : Signal} (h : l.canHear s = true) :
    l.isWaiting = true := by
  cases s <;> simp_all [canHear]

theorem alarm_of_expiry {l : Loop} (h : l.canHear .expiry = true) : l.alarm = .running := by
  simpa [canHear, isWaiting_of_canHear h] using h

theorem alarm_of_tick {l : Loop} {failure : Option Text} (h : l.canHear (.tick failure) = true) :
    l.alarm = .expired := by
  simpa [canHear, isWaiting_of_canHear h] using h

/-- A signal that cannot be received leaves everything as it is. -/
theorem hear_of_not_canHear {l : Loop} {s : Signal} (h : l.canHear s = false) : l.hear s = l := by
  unfold hear
  cases hwaiting : l.isWaiting with
  | false => rfl
  | true =>
      cases s with
      | change _ | changesEnd | cancel => simp [canHear, hwaiting] at h
      | trouble m | expiry | tick failure =>
          simp [canHear, hwaiting] at h
          simp [h]
      | troublesEnd =>
          -- the troubles have ended before
          simp only [canHear, hwaiting, Bool.true_and] at h
          simp [← h]

/-- The alarm after a signal that is received. -/
def alarmAfter (l : Loop) : Signal → Alarm
  | .change true => .running
  | .expiry => .expired
  | .tick _ => .off
  | _ => l.alarm

/-- What a signal that is received does. -/
theorem hear_of_canHear {l : Loop} {s : Signal} (h : l.canHear s = true) :
    (l.hear s).alarm = l.alarmAfter s ∧
    (l.hear s).scans = l.scans + [s].countP (·.isTick) ∧
    (l.hear s).reported = l.reported ++ [s].filterMap (·.trouble?) ∧
    (l.hear s).ending = s.ending? := by
  have hwaiting := isWaiting_of_canHear h
  have hending : l.ending = none := by simpa [isWaiting] using hwaiting
  cases s with
  | change isRelevant =>
      cases isRelevant <;>
        simp [hear, hwaiting, alarmAfter, hending, Signal.isTick, Signal.trouble?, Signal.ending?]
  | tick failure =>
      cases failure <;>
        simp [hear, hwaiting, alarm_of_tick h, alarmAfter, Signal.isTick, Signal.trouble?,
          Signal.ending?]
  | trouble _ | troublesEnd | expiry | changesEnd | cancel =>
      simp [canHear, hwaiting] at h
      simp [hear, hwaiting, h, alarmAfter, hending, Signal.isTick, Signal.trouble?, Signal.ending?]

theorem run_concat (l : Loop) (ss : List Signal) (s : Signal) :
    l.run (ss ++ [s]) = (l.run ss).hear s := by
  rw [run, List.foldl_append]
  rfl

theorem heard_concat (l : Loop) (ss : List Signal) (s : Signal) :
    l.heard (ss ++ [s]) = l.heard ss ++ if (l.run ss).canHear s then [s] else [] := by
  induction ss generalizing l with
  | nil =>
      rw [List.nil_append, heard, heard, heard, List.append_nil]
      rfl
  | cons t ss ih =>
      rw [List.cons_append, heard, ih, heard, List.append_assoc]
      rfl

/-! ## What the state tells about them -/

/-- What the state of the loop tells about the signals that it received. -/
structure Tells (h : List Signal) (l : Loop) : Prop where
  /-- The alarm is set while a relevant change waits for its scan. -/
  alarm : l.alarm ≠ .off ↔ .change true ∈ sinceScan h
  /-- Every scan was asked for since the one before it. -/
  asked : ∀ before failure after, h = before ++ .tick failure :: after →
    .change true ∈ sinceScan before
  scans : l.scans = h.countP (·.isTick)
  /-- Each scan has a change of its own, and so has the alarm. -/
  bounded : l.scans ≤ h.count (.change true)
  spare : l.alarm ≠ .off → l.scans < h.count (.change true)
  reported : l.reported = h.filterMap (·.trouble?)
  /-- Only the last signal can have ended the loop. -/
  ending : l.ending = h.getLast?.bind (·.ending?)
  goesOn : ∀ s ∈ h.dropLast, s.ending? = none

theorem tells_start (hearsTroubles : Bool) : Tells [] { hearsTroubles } := by
  constructor <;> simp [sinceScan]

namespace Tells

variable {h : List Signal} {l : Loop} {s : Signal}

/-- As long as the loop waits, nothing that it received has ended it. -/
theorem ending?_of_mem (ht : Tells h l) (hwaiting : l.isWaiting = true) (hs : s ∈ h) :
    s.ending? = none := by
  have hnone : l.ending = none := by simpa [isWaiting] using hwaiting
  have hlast := ht.ending
  have hfront := ht.goesOn
  rcases List.eq_nil_or_concat h with rfl | ⟨front, last, rfl⟩
  · cases hs
  · simp [hnone] at hlast hfront hs
    rcases hs with hs | rfl
    · exact hfront s hs
    · exact hlast.symm

theorem alarm_hear (ht : Tells h l) (hs : l.canHear s = true) :
    (l.hear s).alarm ≠ .off ↔ .change true ∈ sinceScan (h ++ [s]) := by
  rw [(hear_of_canHear hs).1]
  cases s with
  | tick failure => simp [alarmAfter, sinceScan_tick]
  | expiry =>
      have hasked := ht.alarm.mp (by simp [alarm_of_expiry hs])
      rw [mem_sinceScan rfl]
      simp [alarmAfter, hasked]
  | change isRelevant =>
      rw [mem_sinceScan rfl, ← ht.alarm]
      cases isRelevant <;> simp [alarmAfter]
  | trouble _ | troublesEnd | changesEnd | cancel =>
      rw [mem_sinceScan rfl, ← ht.alarm]
      simp [alarmAfter]

theorem asked_hear (ht : Tells h l) (hs : l.canHear s = true) (before : List Signal)
    (failure : Option Text) (after : List Signal)
    (hsplit : h ++ [s] = before ++ .tick failure :: after) : .change true ∈ sinceScan before := by
  rcases List.eq_nil_or_concat after with rfl | ⟨front, last, rfl⟩
  · -- the new signal is the scan, and the alarm has expired
    obtain ⟨rfl, hlast⟩ := List.append_inj' hsplit rfl
    cases hlast
    exact ht.alarm.mp (by simp [alarm_of_tick hs])
  · rw [List.concat_eq_append, ← List.cons_append, ← List.append_assoc] at hsplit
    exact ht.asked before failure front (List.append_inj' hsplit rfl).1

theorem bounded_hear (ht : Tells h l) (hs : l.canHear s = true) :
    (l.hear s).scans ≤ (h ++ [s]).count (.change true) ∧
    ((l.hear s).alarm ≠ .off → (l.hear s).scans < (h ++ [s]).count (.change true)) := by
  obtain ⟨halarm, hscans, -, -⟩ := hear_of_canHear hs
  have hbounded := ht.bounded
  have hspare := ht.spare
  rw [halarm, hscans, List.count_append]
  cases s with
  | tick failure =>
      simp [alarm_of_tick hs] at hspare
      simp [alarmAfter, Signal.isTick]
      omega
  | expiry =>
      simp [alarm_of_expiry hs] at hspare
      simp [alarmAfter, Signal.isTick]
      omega
  | change isRelevant =>
      cases isRelevant with
      | false => simpa [alarmAfter, Signal.isTick] using ⟨hbounded, hspare⟩
      | true =>
          simp [alarmAfter, Signal.isTick]
          omega
  | trouble _ | troublesEnd | changesEnd | cancel =>
      simpa [alarmAfter, Signal.isTick] using ⟨hbounded, hspare⟩

/-- One more signal. -/
theorem hear (ht : Tells h l) (hs : l.canHear s = true) : Tells (h ++ [s]) (l.hear s) := by
  obtain ⟨-, hscans, hreported, hending⟩ := hear_of_canHear hs
  constructor
  · exact ht.alarm_hear hs
  · exact ht.asked_hear hs
  · rw [hscans, ht.scans, List.countP_append]
  · exact (ht.bounded_hear hs).1
  · exact (ht.bounded_hear hs).2
  · rw [hreported, ht.reported, List.filterMap_append]
  · rw [hending, List.getLast?_concat, Option.bind_some]
  · intro t htmem
    rw [List.dropLast_concat] at htmem
    exact ht.ending?_of_mem (isWaiting_of_canHear hs) htmem

end Tells

/-- Any number of signals, in any order. -/
theorem tells_run (hearsTroubles : Bool) (ss : List Signal) :
    Tells (heard { hearsTroubles } ss) (run { hearsTroubles } ss) := by
  induction ss using List.reverseRecOn with
  | nil => exact tells_start hearsTroubles
  | append_singleton ss s ih =>
      rw [run_concat, heard_concat]
      cases hs : (run { hearsTroubles } ss).canHear s with
      | true => exact ih.hear hs
      | false =>
          rw [hear_of_not_canHear hs]
          simpa using ih

/-- The quiet period ends in a scan exactly when the alarm is set. -/
theorem scans_settle {l : Loop} (hwaiting : l.isWaiting = true) (failure : Option Text) :
    (l.settle failure).scans = if l.alarm = .off then l.scans else l.scans + 1 := by
  have hending : l.ending = none := by simpa [isWaiting] using hwaiting
  cases halarm : l.alarm <;> simp [settle, hear, isWaiting, hending, halarm]

/-- Whatever signals come, and in whatever order: while the loop waits, its alarm is set exactly
when it received a relevant change since the last scan, so that the quiet period leads to a scan in
this case and in no other. Each scan comes after a relevant change that no earlier scan covered, and
there are no more scans than relevant changes. Every trouble is passed on once, in order. Only a
cancellation, the end of the changes or the first scan that fails ends the loop, and it ends with
that failure. -/
theorem run_debounced (hearsTroubles : Bool) (ss : List Signal) :
    let l := run { hearsTroubles } ss
    let received := heard { hearsTroubles } ss
    (l.isWaiting = true →
      (l.alarm ≠ .off ↔ .change true ∈ sinceScan received) ∧
      ∀ failure, (l.settle failure).scans =
        if .change true ∈ sinceScan received then l.scans + 1 else l.scans) ∧
    (∀ before failure after, received = before ++ .tick failure :: after →
      .change true ∈ sinceScan before) ∧
    l.scans = received.countP (·.isTick) ∧
    l.scans ≤ received.count (.change true) ∧
    l.reported = received.filterMap (·.trouble?) ∧
    (∀ r, l.ending = some r ↔
      ∃ before s, received = before ++ [s] ∧ (∀ t ∈ before, t.ending? = none) ∧
        (((s = .cancel ∨ s = .changesEnd) ∧ r = none) ∨ ∃ m, s = .tick (some m) ∧ r = some m)) := by
  intro l received
  have ht : Tells received l := tells_run hearsTroubles ss
  refine ⟨?_, ht.asked, ht.scans, ht.bounded, ht.reported, ?_⟩
  · intro hwaiting
    refine ⟨ht.alarm, ?_⟩
    intro failure
    rw [scans_settle hwaiting]
    by_cases hasked : .change true ∈ sinceScan received
    · rw [if_pos hasked, if_neg (ht.alarm.mpr hasked)]
    · rw [if_neg hasked, if_pos (not_not.mp (mt ht.alarm.mp hasked))]
  · intro r
    rw [ht.ending]
    have hfront := ht.goesOn
    constructor
    · intro hlast
      obtain ⟨s, hs, hends⟩ := Option.bind_eq_some_iff.mp hlast
      obtain ⟨before, hbefore⟩ := List.getLast?_eq_some_iff.mp hs
      rw [hbefore, List.dropLast_concat] at hfront
      exact ⟨before, s, hbefore, hfront, Signal.ending?_eq_some_iff.mp hends⟩
    · rintro ⟨before, s, hreceived, -, hends⟩
      rw [hreceived, List.getLast?_concat, Option.bind_some]
      exact Signal.ending?_eq_some_iff.mpr hends

/-- A change after the expiry starts the quiet period anew, and what comes after a failed scan is
not received. -/
example :
    let l := run {} [.change true, .expiry, .change true, .tick none, .trouble [1], .expiry,
      .tick (some [2]), .trouble [3], .change true, .cancel]
    l.scans = 1 ∧ l.reported = [[1]] ∧ l.ending = some (some [2]) := by decide

end Loop

end LineReview.Watch
