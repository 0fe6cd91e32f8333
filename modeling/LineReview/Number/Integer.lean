import LineReview.Text.Quoted

/-!
# Integers as words

A whole number is written with an optional sign, an optional mark for its base
(`0b`, `0o` or `0x`; a plain `0` in front means base eight) and digits, between
which single underscores may stand. Only numbers of 64 bits are read.
-/

namespace LineReview.Integer

inductive ReadError where
  | malformed
  | range
deriving DecidableEq, Repr

def ReadError.message : ReadError → String
  | malformed => "invalid syntax"
  | range => "value out of range"

/-- Value of a digit in base 36, letters in either case. -/
def digit? (b : UInt8) : Option Nat :=
  if Text.isDigit b then some (b.toNat - 48)
  else if 97 ≤ b && b ≤ 122 then some (b.toNat - 87)
  else if 65 ≤ b && b ≤ 90 then some (b.toNat - 55)
  else none

/-- The base that the mark in front of the digits asks for, and the digits. -/
def splitBase (t : Text) : Nat × Text :=
  let marked (base : Nat) (rest : Text) : Nat × Text := if rest = [] then (8, t.drop 1) else (base, rest)
  match t with
  | 48 :: b :: rest =>
    if b = 98 || b = 66 then marked 2 rest
    else if b = 111 || b = 79 then marked 8 rest
    else if b = 120 || b = 88 then marked 16 rest
    else (8, b :: rest)
  | [48] => (8, [])
  | _ => (10, t)

/-- Reads digits behind the value of those before them. The value may take 64 bits; the first digit
that exceeds them decides, whatever follows it. -/
def digits (base : Nat) : Nat → Text → Except ReadError Nat
  | n, [] => .ok n
  | n, b :: t =>
    if b = 95 then digits base n t
    else match digit? b with
      | none => .error .malformed
      | some d =>
        if base ≤ d then .error .malformed
        else if Nat.pow 2 64 ≤ n * base + d then .error .range
        else digits base (n * base + d) t

/-- Does every underscore stand between two digits? `isAfterDigit` tells what came before; the mark
of a base counts as a digit. -/
def separatesDigits : Bool → Text → Bool
  | _, [] => true
  | isAfterDigit, 95 :: t => isAfterDigit && (match t with
      | [] => false
      | c :: _ => c != 95) && separatesDigits false t
  | _, _ :: t => separatesDigits true t

def magnitude (t : Text) : Except ReadError Nat := do
  if t = [] then throw .malformed
  let (base, ds) := splitBase t
  let n ← digits base 0 ds
  if separatesDigits (base ≠ 10) ds then pure n else throw .malformed

def read (t : Text) : Except ReadError Int64 := do
  let (isNegative, ds) := match t with
    | 43 :: ds => (false, ds)
    | 45 :: ds => (true, ds)
    | _ => (false, t)
  let n ← magnitude ds
  if isNegative then
    if Nat.pow 2 63 < n then throw .range else pure (Int64.ofInt (-n))
  else
    if Nat.pow 2 63 ≤ n then throw .range else pure (Int64.ofNat n)

def message (t : Text) (e : ReadError) : Text :=
  bytes "strconv.ParseInt: parsing " ++ Text.quoted t ++ bytes ": " ++ bytes e.message

end LineReview.Integer
