import LineReview.Text.Utf8
import LineReview.Time.Duration

/-!
# Phase timings

A timer lists the phases of a run with how long each took. The sum of the
durations is 64-bit and wraps.
-/

namespace LineReview

structure Phase where
  name : Text
  duration : Duration := ⟨0⟩
  note : Text := []
deriving DecidableEq, Repr

/-- The phases in the order in which they began. -/
structure Timer where
  phases : List Phase := []
deriving DecidableEq, Repr

namespace Timer

/-- Opens a phase; its index is the number of earlier phases. -/
def start (t : Timer) (name : Text) : Timer := ⟨t.phases ++ [{ name := name }]⟩

def finish (t : Timer) (index : Int) (duration : Duration) (note : Text) : Timer :=
  if index < 0 then t
  else ⟨t.phases.modify index.toNat fun p => { p with duration, note }⟩

/-- Adds a phase that was measured elsewhere. -/
def add (t : Timer) (p : Phase) : Timer := ⟨t.phases ++ [p]⟩

def total (t : Timer) : Duration := ⟨t.phases.foldl (fun s p => s + p.duration.nanoseconds) 0⟩

/-- Pads on the right to a number of code points. -/
def padRight (width : Nat) (t : Text) : Text :=
  t ++ List.replicate (width - (Text.runes t).length) 32

/-- Pads on the left to a number of bytes. -/
def padLeft (width : Nat) (t : Text) : Text := List.replicate (width - t.length) 32 ++ t

def row (name : Text) (d : Duration) : Text :=
  bytes "  " ++ padRight 20 name ++ [32]
    ++ padLeft 7 ((Binary.ofBits d.milliseconds.toBits).fixed 2) ++ bytes " ms"

def summary (t : Timer) : Text :=
  bytes "timings:\n"
    ++ t.phases.flatMap (fun p =>
        row p.name p.duration
          ++ (if p.note = [] then [] else bytes "  // " ++ p.note) ++ [10])
    ++ row (bytes "total") t.total ++ [10]

end Timer

end LineReview
