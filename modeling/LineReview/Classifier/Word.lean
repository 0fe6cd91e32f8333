import LineReview.Text.Space

/-!
# Word expressions

The handful of expressions that declarations are recognised by. Each `…At`
function looks at a text from its first byte on; searching tries every
position from left to right and takes the first that succeeds. Words are runs
of ASCII letters, digits and underscores.
-/

namespace LineReview.Classifier

/-- Byte of a word: an ASCII letter, a digit or an underscore. -/
def isWordByte (b : UInt8) : Bool := b == 95 || Text.isDigit b || Text.isLetter b

/-- A half-open range of byte offsets. -/
structure Span where
  start : Nat
  stop : Nat
deriving DecidableEq, Repr

namespace Span

def contains (r : Span) (i : Nat) : Bool := r.start ≤ i && i < r.stop

def overlaps (r s : Span) : Bool := s.start < r.stop && r.start < s.stop

def of (r : Span) (line : Text) : Text := line.slice r.start r.stop

def shift (n : Nat) (r : Span) : Span := ⟨r.start + n, r.stop + n⟩

end Span

/-- What remains of a text after the keyword and at least one blank. -/
def keywordAt (k : String) (t : Text) : Option Text := do
  let r ← Text.strip? t (bytes k)
  match r with
  | [] => none
  | b :: _ => if Text.isBlank b then some (r.dropWhile Text.isBlank) else none

def wordAt (t : Text) : Option (Text × Text) :=
  let w := t.takeWhile isWordByte
  if w.isEmpty then none else some (w, t.dropWhile isWordByte)

/-- The range of the word with which `t` begins, where `t` is what remains of `whole`. -/
def spanOf (whole t w : Text) : Span :=
  let i := whole.length - t.length
  ⟨i, i + w.length⟩

def namedAt (k : String) (t : Text) : Option Span := do
  let r ← keywordAt k t
  let (w, _) ← wordAt r
  pure (spanOf t r w)

/-- A match at the first position where a word can begin and `at?` succeeds. The flag tells
whether the byte before the text belongs to a word. -/
def searchWord (at? : Text → Option α) (afterWord : Bool) (offset : Nat) :
    Text → Option (Nat × α)
  | [] => none
  | b :: t =>
    match (if afterWord then none else at? (b :: t)) with
    | some m => some (offset, m)
    | none => searchWord at? (isWordByte b) (offset + 1) t

def className? (line : Text) : Option Span :=
  (searchWord (namedAt "class") false 0 line).map fun (i, r) => r.shift i

def namespaceName? (line : Text) : Option Span :=
  (searchWord (namedAt "namespace") false 0 line).map fun (i, r) => r.shift i

/-- An enum: range of its name, and whether `class` or `struct` stands before the name. -/
structure EnumHead where
  isScoped : Bool
  name : Span
deriving DecidableEq, Repr

/-- `enum`, possibly `class` or `struct`, and a name. The word `class` or `struct` is the name
itself when no other word follows it. -/
def enumAt (t : Text) : Option EnumHead := do
  let r ← keywordAt "enum" t
  let scopedHead? := do
    let s ← (keywordAt "class" r).orElse fun _ => keywordAt "struct" r
    let (w, _) ← wordAt s
    pure (EnumHead.mk true (spanOf t s w))
  let plainHead? := do
    let (w, _) ← wordAt r
    pure (EnumHead.mk false (spanOf t r w))
  scopedHead?.orElse fun _ => plainHead?

def enum? (line : Text) : Option EnumHead :=
  (searchWord enumAt false 0 line).map fun (i, e) => { e with name := e.name.shift i }

/-- `class` or `struct`, a name, and an opening brace before any semicolon: offset of the brace. -/
def recordAt (t : Text) : Option Nat := do
  let r ← (keywordAt "class" t).orElse fun _ => keywordAt "struct" t
  let (_, s) ← wordAt r
  match s.dropWhile fun b => b != 123 && b != 59 with
  | 123 :: u => some (t.length - u.length - 1)
  | _ => none

def recordBrace? (line : Text) : Option Nat :=
  (searchWord recordAt false 0 line).map fun (i, n) => i + n

/-- A variable: where its match begins, the range of its name, and the offset after the equals
sign or semicolon that ends the match. -/
structure Candidate where
  start : Nat
  name : Span
  stop : Nat
deriving DecidableEq, Repr

/-- A name and an equals sign or semicolon after it, where `t` is what remains of `whole`. -/
def assignedAt (whole t : Text) : Option Candidate := do
  let (w, r) ← wordAt t
  match r.dropWhile Text.isBlank with
  | b :: u => if b == 61 || b == 59 then some ⟨0, spanOf whole t w, whole.length - u.length⟩ else none
  | [] => none

/-- `const`, `bool`, both in this order or neither, then a name that is assigned or ended. The
longer qualification is preferred. -/
def candidateAt (t : Text) : Option Candidate :=
  let plain (r : Text) := assignedAt t r
  let afterBool (r : Text) := ((keywordAt "bool" r).bind plain).orElse fun _ => plain r
  ((keywordAt "const" t).bind afterBool).orElse fun _ => afterBool t

def searchCandidate (offset : Nat) : Text → Option Candidate
  | [] => none
  | b :: t =>
    match candidateAt (b :: t) with
    | some c => some ⟨offset, c.name.shift offset, c.stop + offset⟩
    | none => searchCandidate (offset + 1) t

/-- All candidates, from left to right, each search starting where the last match ended. The
fuel is the number of bytes left, because every match takes at least one. -/
def candidatesFrom : Nat → Nat → Text → List Candidate
  | 0, _, _ => []
  | fuel + 1, offset, t =>
    match searchCandidate offset t with
    | none => []
    | some c => c :: candidatesFrom fuel c.stop (t.drop (c.stop - offset))

def candidates (line : Text) : List Candidate := candidatesFrom line.length 0 line

/-- `using namespace` in front of the line, as whole words. -/
def isUsingDirective (line : Text) : Bool :=
  match keywordAt "using" (line.dropWhile Text.isBlank) with
  | none => false
  | some r =>
    match Text.strip? r (bytes "namespace") with
    | none => false
    | some [] => true
    | some (b :: _) => !isWordByte b

end LineReview.Classifier
