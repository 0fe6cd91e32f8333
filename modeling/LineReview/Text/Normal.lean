import LineReview.Text.Utf8
import LineReview.Text.Normal.Table

/-!
# Normalised length

Line length counts code points after canonical composition, so a letter with
an accent counts once however it is spelled. Long runs of combining marks are
first broken up by a joiner after every thirty of them, which bounds the work
per letter; the joiner counts as well.
-/

namespace LineReview.Text.Normal

def combiningClass (c : Nat) : Nat :=
  if c < 0x300 then 0 else (classTable.find? c).getD 0

def isSyllable (c : Nat) : Bool := 0xAC00 ≤ c && c ≤ 0xD7A3

/-- The vowel and final jamo of a Hangul syllable are arithmetic. -/
def decomposeSyllable (c : Nat) : List Nat :=
  let i := c - 0xAC00
  let base := [0x1100 + i / 588, 0x1161 + i % 588 / 28]
  if i % 28 = 0 then base else base ++ [0x11A7 + i % 28]

def decompose (c : Nat) : List Nat :=
  if c < 0xC0 then [c]
  else if isSyllable c then decomposeSyllable c
  else (decompositionTable.lookup c).getD [c]

def composite? (a b : Nat) : Option Nat :=
  if 0x1100 ≤ a && a ≤ 0x1112 && 0x1161 ≤ b && b ≤ 0x1175 then
    some (0xAC00 + (a - 0x1100) * 588 + (b - 0x1161) * 28)
  else if isSyllable a && (a - 0xAC00) % 28 = 0 && 0x11A8 ≤ b && b ≤ 0x11C2 then
    some (a + (b - 0x11A7))
  else if b < 0x300 then none
  else compositeTable.lookup (a, b)

/-- Combining code points that the decomposition begins with. -/
def leadCount (c : Nat) : Nat := if c < 0x300 then 0 else (leadTable.find? c).getD 0

/-- Combining code points that the decomposition ends with. -/
def trailCount (c : Nat) : Nat :=
  if c < 0x80 then 0
  else if isSyllable c then (if (c - 0xAC00) % 28 = 0 then 1 else 2)
  else
    let l := leadCount c
    if l = 0 then (trailTable.find? c).getD 0 else l

def joiner : Nat := 0x34F

/-- Longest run of combining code points. -/
def maxRun : Nat := 30

/-- Puts a joiner in front of every code point that would make a run of combining code points
longer than `maxRun`. The number is the length of the run so far. -/
def withJoiners (run : Nat) : List Nat → List Nat
  | [] => []
  | c :: cs =>
    let l := leadCount c
    if maxRun < run + l then joiner :: c :: withJoiners l cs
    else if l = 0 then c :: withJoiners (trailCount c) cs
    else c :: withJoiners (run + l) cs

/-- Inserts a code point before the first one of a class that is zero or not smaller. -/
def insertByClass (c : Nat) : List Nat → List Nat
  | [] => [c]
  | d :: ds =>
    if combiningClass d = 0 || combiningClass c ≤ combiningClass d then c :: d :: ds
    else d :: insertByClass c ds

/-- Sorts every run of combining code points by class, equal classes in their old order. -/
def reorder (cs : List Nat) : List Nat :=
  cs.foldr (fun c ds => if combiningClass c = 0 then c :: ds else insertByClass c ds) []

/-- Composition to the right of a starter: `held` are the combining code points since the
starter that stayed, in reverse, and `last` is the class of the latest of them. -/
def composeFrom (starter : Nat) (held : List Nat) (last : Nat) : List Nat → List Nat
  | [] => starter :: held.reverse
  | c :: cs =>
    let k := combiningClass c
    let free := held.isEmpty || last < k
    match (if free then composite? starter c else none) with
    | some p => composeFrom p held last cs
    | none =>
      if k = 0 then starter :: held.reverse ++ composeFrom c [] 0 cs
      else composeFrom starter (c :: held) k cs

def compose : List Nat → List Nat
  | [] => []
  | c :: cs => if combiningClass c = 0 then composeFrom c [] 0 cs else c :: compose cs

/-- Normalisation form C, with long runs of combining code points broken up. -/
def normalise (cs : List Nat) : List Nat :=
  compose (reorder ((withJoiners 0 cs).flatMap decompose))

end Normal

def normalLength (t : Text) : Nat := (Normal.normalise (codes t)).length

end LineReview.Text
