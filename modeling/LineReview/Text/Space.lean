import LineReview.Text.Utf8

/-!
# White space

Two notions are in use. A *blank* is one of the five bytes that may separate
words of a declaration; a *space* is any code point that Unicode calls white
space, and it is what trimming removes and what indentation is made of.
-/

namespace LineReview.Text

/-- Tab, line feed, form feed, carriage return or space. -/
def isBlank (b : UInt8) : Bool := b == 9 || b == 10 || b == 12 || b == 13 || b == 32

/-- Code points with the White_Space property. -/
def isSpace (c : Nat) : Bool :=
  (9 ≤ c && c ≤ 13) || c == 0x20 || c == 0x85 || c == 0xA0 || c == 0x1680
    || (0x2000 ≤ c && c ≤ 0x200A) || c == 0x2028 || c == 0x2029 || c == 0x202F
    || c == 0x205F || c == 0x3000

def leading (t : Text) : Text := ofRunes ((runes t).takeWhile fun r => isSpace r.code)

def trimLeft (t : Text) : Text := ofRunes ((runes t).dropWhile fun r => isSpace r.code)

def trimRight (t : Text) : Text :=
  ofRunes ((runes t).reverse.dropWhile fun r => isSpace r.code).reverse

def trim (t : Text) : Text := trimRight (trimLeft t)

def hasSpace (t : Text) : Bool := (runes t).any fun r => isSpace r.code

theorem leading_append_trimLeft (t : Text) : leading t ++ trimLeft t = t := by
  rw [leading, trimLeft, ofRunes, ofRunes, ← List.flatMap_append, List.takeWhile_append_dropWhile]
  exact ofRunes_runes t

end LineReview.Text
