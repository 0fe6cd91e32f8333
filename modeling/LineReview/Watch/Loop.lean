import LineReview.Text.Basic

/-!
# Waiting for changes

A loop hears of changes to files and scans again once nothing relevant has
happened for a while. Each relevant change starts the quiet period anew, so a
burst of changes leads to one scan. Troubles of the watch itself are passed on.

`Loop.hear` is the step of the loop. Which signals come, and in which order, is
not up to the loop; a signal that cannot be received in a state leaves it as it
is.
-/

namespace LineReview.Watch

/-- The clock that measures the quiet period. -/
inductive Alarm where
  | off
  | running
  /-- The period is over, and the loop has not taken notice yet. -/
  | expired
deriving DecidableEq, Repr

inductive Signal where
  | change (isRelevant : Bool)
  | trouble (message : Text)
  /-- No more troubles will be told. -/
  | troublesEnd
  /-- The quiet period is over. -/
  | expiry
  /-- The loop takes notice of the expiry and scans; the scan may fail for a reason. -/
  | tick (failure : Option Text)
  /-- No more changes will be told. -/
  | changesEnd
  | cancel
deriving DecidableEq, Repr

structure Loop where
  alarm : Alarm := .off
  /-- Troubles can still come. -/
  hearsTroubles : Bool := true
  /-- Scans so far. -/
  scans : Nat := 0
  /-- Troubles that were passed on, the first one first. -/
  reported : List Text := []
  /-- How the loop ended, if it did: with a failed scan or without. -/
  ending : Option (Option Text) := none
deriving DecidableEq, Repr

namespace Loop

def isWaiting (l : Loop) : Bool := l.ending.isNone

def hear (l : Loop) (s : Signal) : Loop :=
  if !l.isWaiting then l
  else match s with
    | .change isRelevant => if isRelevant then { l with alarm := .running } else l
    | .trouble m => if l.hearsTroubles then { l with reported := l.reported ++ [m] } else l
    | .troublesEnd => { l with hearsTroubles := false }
    | .expiry => if l.alarm = .running then { l with alarm := .expired } else l
    | .tick failure =>
      if l.alarm = .expired then
        { l with
          alarm := .off, scans := l.scans + 1
          ending := match failure with
            | some m => some (some m)
            | none => none }
      else l
    | .changesEnd => { l with ending := some none }
    | .cancel => { l with ending := some none }

def run (l : Loop) (ss : List Signal) : Loop := ss.foldl hear l

/-- Lets the quiet period pass, if one is running, with the scan that follows it. -/
def settle (l : Loop) (failure : Option Text) : Loop := (l.hear .expiry).hear (.tick failure)

end Loop

end LineReview.Watch
