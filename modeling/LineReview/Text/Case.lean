import LineReview.Text.Utf8

/-!
# Letter case of words

Option values are compared with small ASCII words without regard to case.
Outside ASCII only three code points can take part: the dotted capital I and
the Kelvin sign have an ASCII letter as their small form, and the long s and
the Kelvin sign are case variants of an ASCII letter. All other code points
never become part of such a word and stay as they are.
-/

namespace LineReview.Text

/-- ASCII letters and the two signs with an ASCII small form, made small. The result is a given
ASCII word exactly when the small form of every code point spells it. -/
def lowerWord (t : Text) : Text :=
  lowerAscii ((runes t).flatMap fun r =>
    if r.code = 0x130 then [105] else if r.code = 0x212A then [107] else r.raw)

/-- Case folding: like `lowerWord`, but the long s counts as an s and the dotted I stays. -/
def foldWord (t : Text) : Text :=
  lowerAscii ((runes t).flatMap fun r =>
    if r.code = 0x17F then [115] else if r.code = 0x212A then [107] else r.raw)

end LineReview.Text
