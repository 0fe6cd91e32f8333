import LineReview.Text.Utf8
import LineReview.Text.Printable

/-!
# Quoted texts

Messages show values they complain about between double quotes. Printable code
points stand for themselves, a quote and a backslash are escaped by a
backslash, the usual control characters have a letter, and all else is
written in hexadecimal: two digits for a control character or a stray byte,
four or eight for a code point.
-/

namespace LineReview.Text

/-- The letter that follows a backslash for a control character with an escape of its own. -/
def escapeLetter? (c : Nat) : Option UInt8 :=
  match c with
  | 7 => some 97
  | 8 => some 98
  | 9 => some 116
  | 10 => some 110
  | 11 => some 118
  | 12 => some 102
  | 13 => some 114
  | _ => none

def quoteRune (r : Rune) : Text :=
  if r.isStray then bytes "\\x" ++ hex r.raw
  else if r.code == 34 || r.code == 92 then 92 :: r.raw
  else if isPrintable r.code then r.raw
  else match escapeLetter? r.code with
    | some l => [92, l]
    | none =>
      if r.code < 0x20 || r.code == 0x7F then bytes "\\x" ++ hexPadded 2 r.code
      else if r.code < 0x10000 then bytes "\\u" ++ hexPadded 4 r.code
      else bytes "\\U" ++ hexPadded 8 r.code

def quoted (t : Text) : Text := 34 :: (runes t).flatMap quoteRune ++ [34]

def quotedList (ts : List Text) : Text :=
  bytes "[" ++ joinWith [32] (ts.map quoted) ++ bytes "]"

end LineReview.Text
