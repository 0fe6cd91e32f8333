/-!
# Texts as byte sequences

Source lines, paths and messages are finite sequences of bytes. Nothing here
assumes that they spell out characters: columns, offsets and lengths count
bytes, and a text with broken encoding is as good as any other.

`bytes` turns a literal into its text, `decimal` writes a number, and the
splitting functions are the ones that paths, lists and messages are built from.
-/

namespace LineReview

/-- A sequence of bytes. -/
abbrev Text := List UInt8

/-- The UTF-8 bytes of a literal. -/
def bytes (s : String) : Text := s.toUTF8.data.toList

namespace Text

def byteOf (c : Char) : UInt8 := c.toNat.toUInt8

def decimal (n : Nat) : Text := (Nat.toDigits 10 n).map byteOf

def decimalInt (i : Int) : Text :=
  if i < 0 then 45 :: decimal i.natAbs else decimal i.natAbs

/-- Decimal digits, padded on the left with zeros to the given width. -/
def decimalPadded (width n : Nat) : Text :=
  let d := decimal n
  List.replicate (width - d.length) 48 ++ d

def ofBool (b : Bool) : Text := bytes (if b then "true" else "false")

def startsWith : Text → Text → Bool
  | _, [] => true
  | [], _ :: _ => false
  | b :: t, c :: p => b == c && startsWith t p

def endsWith (t p : Text) : Bool :=
  p.length ≤ t.length && t.drop (t.length - p.length) == p

/-- What follows `p` in a text that begins with it. -/
def strip? : Text → Text → Option Text
  | t, [] => some t
  | [], _ :: _ => none
  | b :: t, c :: p => if b == c then strip? t p else none

/-- `strip?`, or the text itself when it does not begin with `p`. -/
def stripped (t p : Text) : Text := (strip? t p).getD t

def hasInfix (p : Text) : Text → Bool
  | [] => p.isEmpty
  | b :: t => startsWith (b :: t) p || hasInfix p t

/-- The parts between the occurrences of the byte `sep`. There is one part more
than there are separators, so the empty text has one empty part. -/
def splitOn (sep : UInt8) : Text → List Text
  | [] => [[]]
  | b :: t =>
    if b = sep then [] :: splitOn sep t
    else match splitOn sep t with
      | [] => [[b]]
      | p :: ps => (b :: p) :: ps

def joinWith (sep : Text) : List Text → Text
  | [] => []
  | [t] => t
  | t :: ts => t ++ sep ++ joinWith sep ts

def replaceByte (old : UInt8) (new : Text) (t : Text) : Text :=
  t.flatMap fun b => if b = old then new else [b]

def indexOf? (c : UInt8) : Text → Option Nat
  | [] => none
  | b :: t => if b = c then some 0 else (indexOf? c t).map (· + 1)

def indexOfText? (p : Text) : Text → Option Nat
  | [] => if p.isEmpty then some 0 else none
  | b :: t => if startsWith (b :: t) p then some 0 else (indexOfText? p t).map (· + 1)

def dropTrailing (p : UInt8 → Bool) (t : Text) : Text := (t.reverse.dropWhile p).reverse

/-- Bytes from offset `i` up to, not including, `j`. -/
def slice (t : Text) (i j : Nat) : Text := (t.drop i).take (j - i)

def less : Text → Text → Bool
  | _, [] => false
  | [], _ :: _ => true
  | a :: s, b :: t => a < b || (a == b && less s t)

def atMost (s t : Text) : Bool := !less t s

def repeated (n : Nat) (t : Text) : Text := (List.replicate n t).flatten

/-- ASCII capitals made small; every other byte stays. -/
def lowerAscii (t : Text) : Text :=
  t.map fun b => if 65 ≤ b && b ≤ 90 then b + 32 else b

def isDigit (b : UInt8) : Bool := 48 ≤ b && b ≤ 57

def isLetter (b : UInt8) : Bool := (65 ≤ b && b ≤ 90) || (97 ≤ b && b ≤ 122)

def hexDigit (n : Nat) : UInt8 := if n < 10 then (48 + n).toUInt8 else (87 + n).toUInt8

def hex (t : Text) : Text :=
  t.flatMap fun b => [hexDigit (b.toNat / 16), hexDigit (b.toNat % 16)]

/-- Exactly `width` hexadecimal digits of `n`, the most significant first. -/
def hexPadded : Nat → Nat → Text
  | 0, _ => []
  | w + 1, n => hexPadded w (n / 16) ++ [hexDigit (n % 16)]

def hexValue? (b : UInt8) : Option Nat :=
  if isDigit b then some (b.toNat - 48)
  else if 97 ≤ b && b ≤ 102 then some (b.toNat - 87)
  else if 65 ≤ b && b ≤ 70 then some (b.toNat - 55)
  else none

def unhex? : Text → Option Text
  | [] => some []
  | [_] => none
  | a :: b :: t => do
    let h ← hexValue? a
    let l ← hexValue? b
    let r ← unhex? t
    pure ((16 * h + l).toUInt8 :: r)

theorem splitOn_ne_nil (sep : UInt8) (t : Text) : splitOn sep t ≠ [] := by
  cases t with
  | nil => simp [splitOn]
  | cons b t =>
    unfold splitOn
    split
    · simp
    · split <;> simp

theorem joinWith_splitOn (sep : UInt8) (t : Text) : joinWith [sep] (splitOn sep t) = t := by
  induction t with
  | nil => rfl
  | cons b t ih =>
    unfold splitOn
    cases hs : splitOn sep t with
    | nil => exact absurd hs (splitOn_ne_nil sep t)
    | cons p ps =>
      rw [hs] at ih
      split
      · next h => simp [joinWith, h, ih]
      · cases ps with
        | nil => simpa [joinWith] using ih
        | cons q qs => simpa [joinWith] using ih

theorem splitOn_append (sep : UInt8) (a b : Text) :
    splitOn sep (a ++ sep :: b) = splitOn sep a ++ splitOn sep b := by
  induction a with
  | nil => simp [splitOn]
  | cons c a ih =>
    rw [List.cons_append]
    by_cases hc : c = sep
    · simp [splitOn, hc, ih]
    · cases hs : splitOn sep a with
      | nil => exact absurd hs (splitOn_ne_nil sep a)
      | cons p ps => simp [splitOn, hc, ih, hs]

end Text

end LineReview
