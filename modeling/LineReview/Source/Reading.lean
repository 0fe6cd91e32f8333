import LineReview.Source.File

/-!
# Reading with 32-bit numbers

Offsets and numbers of lines are 32-bit numbers, an index can be asked beyond its
end, and a slice can have its bounds in the wrong order. Here a line is read with
all of this in view: there is no result where an access is out of range, and
`readLines?` has none either where counting does not come to an end.
-/

namespace LineReview

namespace SourceFile

/-- The number of lines; `none` when the index is too long for a 32-bit number. -/
def count? (f : SourceFile) : Option UInt32 :=
  if f.lineIndex.size < UInt32.size then
    match f.content.getLast? with
    | none => some 0
    | some b =>
      if b = 10 then some f.lineIndex.size.toUInt32 else some (f.lineIndex.size.toUInt32 + 1)
  else none

/-- Where a line begins; `none` when the index has no line feed before it. -/
def lineStart? (f : SourceFile) (n : UInt32) : Option UInt32 :=
  if 1 < n then f.lineIndex[(n - 2).toNat]?.map (· + 1) else some 0

/-- Where a line stops: at its line feed, or at the end of the content. -/
def lineStop (f : SourceFile) (n : UInt32) : UInt32 :=
  f.lineIndex[(n - 1).toNat]?.getD f.content.length.toUInt32

/-- The content between two offsets; `none` unless they are in order and inside the content. -/
def slice? (f : SourceFile) (start stop : UInt32) : Option Text :=
  if start ≤ stop ∧ stop.toNat ≤ f.content.length then
    some (f.content.slice start.toNat stop.toNat)
  else none

/-- The line with a number, or the empty text when there is no such line. -/
def readLine? (f : SourceFile) (n : UInt32) : Option Text :=
  f.count?.bind fun count =>
    if n = 0 ∨ count < n then some []
    else (f.lineStart? n).bind fun start => f.slice? start (f.lineStop n)

/-- The lines from a number on, in at most `fuel` rounds. -/
def readLines? (f : SourceFile) : Nat → UInt32 → Option (List (UInt32 × Text))
  | 0, _ => none
  | fuel + 1, n =>
    f.count?.bind fun count =>
      if n ≤ count then
        (f.readLine? n).bind fun l => (f.readLines? fuel (n + 1)).map ((n, l) :: ·)
      else some []

end SourceFile

end LineReview
