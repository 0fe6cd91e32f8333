import LineReview.Text.Utf8
import LineReview.Text.Cluster.Table

/-!
# Grapheme clusters

A text is cut into the units that a reader perceives as one character. The
cut works on bytes: a sequence with a well-formed frame is one unit even when
its value is not a code point, and a sequence that the end of the text breaks
off belongs, with all that follows, to the cluster before it.
-/

namespace LineReview.Text

/-- What a unit does to the cluster boundary before and after it. -/
inductive Cluster.Break where
  | other | cr | lf | control | extend | zwj | regional | prepend | spacingMark
  | l | v | t | lv | lvt | pictograph
deriving DecidableEq, Repr

namespace Cluster

def Break.ofCode (c : Nat) : Break :=
  if c == 0x0D then .cr
  else if c == 0x0A then .lf
  else if c < 0x20 || c == 0x7F then .control
  else if c < 0x80 then .other
  else if c == 0x200D then .zwj
  else if 0x1F1E6 ≤ c && c ≤ 0x1F1FF then .regional
  else if (0x1100 ≤ c && c ≤ 0x115F) || (0xA960 ≤ c && c ≤ 0xA97C) then .l
  else if (0x1160 ≤ c && c ≤ 0x11A7) || (0xD7B0 ≤ c && c ≤ 0xD7C6) then .v
  else if (0x11A8 ≤ c && c ≤ 0x11FF) || (0xD7CB ≤ c && c ≤ 0xD7FB) then .t
  else if 0xAC00 ≤ c && c ≤ 0xD7A3 then (if (c - 0xAC00) % 28 = 0 then .lv else .lvt)
  else if controlTable.covers c then .control
  else if extendTable.covers c then .extend
  else if prependTable.covers c then .prepend
  else if spacingMarkTable.covers c then .spacingMark
  else if pictographTable.covers c then .pictograph
  else .other

/-- The class of a sequence of bytes that is framed as one code point. -/
def Break.ofFrame (t : Text) : Break :=
  match runes t with
  | [r] => Break.ofCode r.code
  | _ => .other

/-- The class of the first unit and the number of its bytes; `none` when the end of the text
breaks the unit off. -/
def unit? (a : UInt8) (t : Text) : Option (Break × Nat) :=
  if a < 0x80 then some (Break.ofCode a.toNat, 1)
  else if a < 0xC2 then some (.other, 1)
  else if a < 0xE0 then
    match t with
    | b :: _ => if isContinuation b then some (Break.ofFrame [a, b], 2) else some (.other, 1)
    | _ => none
  else if a < 0xF0 then
    match t with
    | b :: c :: _ =>
      if !isContinuation b then some (.other, 1)
      else if !isContinuation c then some (.other, 2)
      else some (Break.ofFrame [a, b, c], 3)
    | _ => none
  else if a < 0xF8 then
    match t with
    | b :: c :: d :: _ =>
      if !isContinuation b then some (.other, 1)
      else if !isContinuation c then some (.other, 2)
      else if !isContinuation d then some (.other, 3)
      else some (Break.ofFrame [a, b, c, d], 4)
    | _ => none
  else some (.other, 1)

/-- A cluster under construction: its bytes, the class of its last unit, the last two classes
that are not marks, and the number of neighbouring pairs of regional indicators. -/
structure Open where
  raw : Text
  last : Break
  lastBase : Break
  beforeBase : Break
  pairs : Nat

def Open.start (raw : Text) (b : Break) : Open := ⟨raw, b, b, .other, 0⟩

def Open.push (o : Open) (raw : Text) (b : Break) (pairs : Nat) : Open :=
  if b = .extend then ⟨o.raw ++ raw, b, o.lastBase, o.beforeBase, pairs⟩
  else ⟨o.raw ++ raw, b, b, o.lastBase, pairs⟩

def Break.isSeparator (b : Break) : Bool := b = .control || b = .cr || b = .lf

def Open.accepts (o : Open) (b : Break) : Bool :=
  if o.last = .cr && b = .lf then true
  else if o.last.isSeparator || b.isSeparator then false
  else if o.last = .l && (b = .l || b = .v || b = .lv || b = .lvt) then true
  else if (o.last = .lv || o.last = .v) && (b = .v || b = .t) then true
  else if (o.last = .lvt || o.last = .t) && b = .t then true
  else if b = .extend || b = .zwj || b = .spacingMark then true
  else if o.last = .prepend then true
  else if b = .pictograph && o.last = .zwj && o.beforeBase = .pictograph then true
  else b = .regional && o.last = .regional && o.pairs % 2 = 0

/-- The clusters that follow, when `o` is under construction. -/
def collect (o : Open) : Text → List Text
  | [] => [o.raw]
  | a :: t =>
    match unit? a t with
    | none => [o.raw ++ a :: t]
    | some (b, n) =>
      let raw := a :: t.take (n - 1)
      if o.accepts b then
        let pairs := if b = .regional && o.last = .regional then o.pairs + 1 else o.pairs
        collect (o.push raw b pairs) (t.drop (n - 1))
      else o.raw :: collect (.start raw b) (t.drop (n - 1))
termination_by t => t.length
decreasing_by all_goals (simp only [List.length_cons, List.length_drop]; omega)

end Cluster

def clusters : Text → List Text
  | [] => []
  | a :: t =>
    match Cluster.unit? a t with
    | none => [a :: t]
    | some (b, n) => Cluster.collect (.start (a :: t.take (n - 1)) b) (t.drop (n - 1))

end LineReview.Text
