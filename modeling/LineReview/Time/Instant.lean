import LineReview.Text.Basic

/-!
# Instants

An instant counts seconds and nanoseconds since the start of 1970 in universal
time. The calendar is the Gregorian one, extended in both directions.
-/

namespace LineReview

structure Instant where
  seconds : Int := 0
  nanoseconds : Nat := 0
deriving DecidableEq, Repr

namespace Instant

structure Date where
  year : Int
  month : Nat
  day : Nat
deriving DecidableEq, Repr

def secondOfDay (t : Instant) : Nat := (t.seconds % 86400).toNat

/-- The date of a day, counted from 1 January 1970. Years are taken to begin in March, so that
the leap day is the last of its year, and four centuries have 146097 days. -/
def dateOfDay (days : Int) : Date :=
  let z := days + 719468
  let era := z.fdiv 146097
  let doe := (z - era * 146097).toNat
  let yoe := (doe - doe / 1460 + doe / 36524 - doe / 146096) / 365
  let doy := doe - (365 * yoe + yoe / 4 - yoe / 100)
  let mp := (5 * doy + 2) / 153
  let month := if mp < 10 then mp + 3 else mp - 9
  { year := yoe + era * 400 + (if month ≤ 2 then 1 else 0)
    month
    day := doy - (153 * mp + 2) / 5 + 1 }

def date (t : Instant) : Date := dateOfDay (t.seconds.fdiv 86400)

def clock (t : Instant) : Text :=
  let s := t.secondOfDay
  Text.decimalPadded 2 (s / 3600) ++ [58] ++ Text.decimalPadded 2 (s / 60 % 60) ++ [58]
    ++ Text.decimalPadded 2 (s % 60)

/-- The clock with milliseconds, cut off. -/
def clockMillis (t : Instant) : Text :=
  t.clock ++ [46] ++ Text.decimalPadded 3 (t.nanoseconds / 1000000)

/-- Date and time with the fraction of a second that is not zero. -/
def stamp (t : Instant) : Text :=
  let d := t.date
  let fraction := Text.dropTrailing (· == 48) (Text.decimalPadded 9 t.nanoseconds)
  (if d.year < 0 then [45] else []) ++ Text.decimalPadded 4 d.year.natAbs ++ [45]
    ++ Text.decimalPadded 2 d.month ++ [45] ++ Text.decimalPadded 2 d.day ++ [84] ++ t.clock
    ++ (if fraction = [] then [] else 46 :: fraction) ++ [90]

def digits (t : Instant) : Text :=
  let d := t.date
  let s := t.secondOfDay
  (if d.year < 0 then [45] else []) ++ Text.decimalPadded 4 d.year.natAbs
    ++ Text.decimalPadded 2 d.month ++ Text.decimalPadded 2 d.day
    ++ Text.decimalPadded 2 (s / 3600) ++ Text.decimalPadded 2 (s / 60 % 60)
    ++ Text.decimalPadded 2 (s % 60)

end Instant

end LineReview
