import LineReview.Text.Basic

/-!
# UTF-8 over arbitrary bytes

`runes` cuts a text into code points. Every byte that starts no well-formed
sequence stands for one replacement character of its own, so the cut is
total and no byte is lost: `flatMap_raw_runes`.
-/

namespace LineReview

/-- A code point together with the bytes it was read from. -/
structure Rune where
  code : Nat
  raw : Text
deriving DecidableEq, Repr

namespace Rune

def replacement : Nat := 0xFFFD

def stray (b : UInt8) : Rune := ⟨replacement, [b]⟩

/-- A stray byte, as opposed to a properly spelled code point. -/
def isStray (r : Rune) : Bool := r.code == replacement && r.raw.length == 1

end Rune

namespace Text

/-- Is the byte of the form `10xxxxxx`? -/
def isContinuation (b : UInt8) : Bool := 0x80 ≤ b && b ≤ 0xBF

/-- Two bytes of the form `110xxxxx 10xxxxxx`, the shorter spellings excluded. -/
def isPair (a b : UInt8) : Bool := 0xC2 ≤ a && a ≤ 0xDF && isContinuation b

/-- Three bytes that spell a code point from U+0800 on, surrogates excluded. -/
def isTriple (a b c : UInt8) : Bool :=
  0xE0 ≤ a && a ≤ 0xEF && isContinuation b && isContinuation c
    && (a != 0xE0 || 0xA0 ≤ b) && (a != 0xED || b ≤ 0x9F)

/-- Four bytes that spell a code point from U+10000 to U+10FFFF. -/
def isQuad (a b c d : UInt8) : Bool :=
  0xF0 ≤ a && a ≤ 0xF4 && isContinuation b && isContinuation c && isContinuation d
    && (a != 0xF0 || 0x90 ≤ b) && (a != 0xF4 || b ≤ 0x8F)

/-- The payload of a continuation byte. -/
def low6 (b : UInt8) : Nat := b.toNat % 64

def runes : Text → List Rune
  | [] => []
  | [a] => [if a < 0x80 then ⟨a.toNat, [a]⟩ else .stray a]
  | [a, b] =>
    if a < 0x80 then ⟨a.toNat, [a]⟩ :: runes [b]
    else if isPair a b then [⟨a.toNat % 32 * 64 + low6 b, [a, b]⟩]
    else .stray a :: runes [b]
  | [a, b, c] =>
    if a < 0x80 then ⟨a.toNat, [a]⟩ :: runes [b, c]
    else if isPair a b then ⟨a.toNat % 32 * 64 + low6 b, [a, b]⟩ :: runes [c]
    else if isTriple a b c then [⟨(a.toNat % 16 * 64 + low6 b) * 64 + low6 c, [a, b, c]⟩]
    else .stray a :: runes [b, c]
  | a :: b :: c :: d :: t =>
    if a < 0x80 then ⟨a.toNat, [a]⟩ :: runes (b :: c :: d :: t)
    else if isPair a b then ⟨a.toNat % 32 * 64 + low6 b, [a, b]⟩ :: runes (c :: d :: t)
    else if isTriple a b c then
      ⟨(a.toNat % 16 * 64 + low6 b) * 64 + low6 c, [a, b, c]⟩ :: runes (d :: t)
    else if isQuad a b c d then
      ⟨((a.toNat % 8 * 64 + low6 b) * 64 + low6 c) * 64 + low6 d, [a, b, c, d]⟩ :: runes t
    else .stray a :: runes (b :: c :: d :: t)

def codes (t : Text) : List Nat := (runes t).map (·.code)

def isUtf8 (t : Text) : Bool := (runes t).all fun r => !r.isStray

/-- UTF-8 bytes of a code point; those that cannot be spelled become the
replacement character. -/
def encodeCode (c : Nat) : Text :=
  if c < 0x80 then [c.toUInt8]
  else if c < 0x800 then [(0xC0 + c / 64).toUInt8, (0x80 + c % 64).toUInt8]
  else if 0x10FFFF < c || (0xD800 ≤ c && c ≤ 0xDFFF) then [0xEF, 0xBF, 0xBD]
  else if c < 0x10000 then
    [(0xE0 + c / 4096).toUInt8, (0x80 + c / 64 % 64).toUInt8, (0x80 + c % 64).toUInt8]
  else
    [(0xF0 + c / 262144).toUInt8, (0x80 + c / 4096 % 64).toUInt8,
      (0x80 + c / 64 % 64).toUInt8, (0x80 + c % 64).toUInt8]

def ofRunes (rs : List Rune) : Text := rs.flatMap (·.raw)

theorem ofRunes_runes (t : Text) : ofRunes (runes t) = t := by
  fun_induction runes t <;> simp_all [ofRunes, Rune.stray]
  split <;> rfl

end Text

end LineReview
