import LineReview.Text.Utf8

/-!
# Wildcards

A glob is a list of glyphs that is matched against a list of symbols: `*` and
`?` stay inside one name, `**` and the folders before a name do not. A pattern
without character classes and without `**` is read bytewise; the others are read
by code points, with every stray byte as one replacement character.
-/

namespace LineReview.PathRule

def slash : Nat := 47

inductive Glyph where
  | one (c : Nat)
  /-- Any symbol but a slash. -/
  | any
  /-- Any number of symbols other than slashes. -/
  | many
  /-- A symbol inside, or outside, of the ranges. -/
  | among (isNegated : Bool) (ranges : List (Nat × Nat))
  /-- Any number of symbols on one line. -/
  | deep
  /-- Nothing, or any symbols on one line up to a slash. -/
  | folders
deriving DecidableEq, Repr

namespace Glyph

def inRanges (c : Nat) (rs : List (Nat × Nat)) : Bool := rs.any fun r => r.1 ≤ c && c ≤ r.2

/-- Passes over some symbols that satisfy `ok`, and then `next` holds. -/
def skipThen (ok : Nat → Bool) (next : List Nat → Bool) : List Nat → Bool
  | [] => next []
  | c :: t => next (c :: t) || (ok c && skipThen ok next t)

/-- Do the glyphs match the front of the symbols, so that `rest` holds of what follows? -/
def accepts (rest : List Nat → Bool) : List Glyph → List Nat → Bool
  | [], t => rest t
  | one c :: g, t => match t with
    | d :: t => c == d && accepts rest g t
    | [] => false
  | any :: g, t => match t with
    | d :: t => d != slash && accepts rest g t
    | [] => false
  | many :: g, t => skipThen (· != slash) (accepts rest g) t
  | among isNegated rs :: g, t => match t with
    | d :: t => inRanges d rs != isNegated && accepts rest g t
    | [] => false
  | deep :: g, t => skipThen (· != 10) (accepts rest g) t
  | folders :: g, t =>
    accepts rest g t ||
      skipThen (· != 10) (fun u => match u with
        | c :: v => c == slash && accepts rest g v
        | [] => false) t

def cutAtBracket? : List Nat → Option (List Nat × List Nat)
  | [] => none
  | c :: t => if c = 93 then some ([], t) else (cutAtBracket? t).map fun (a, b) => (c :: a, b)

/-- The content of a class and what follows it; `none` when it is not closed. Directly after the
opening bracket, and after the mark that negates, a closing bracket is content. -/
def classBody? : List Nat → Option (List Nat × List Nat)
  | 33 :: 93 :: t => (cutAtBracket? t).map fun (a, b) => (33 :: 93 :: a, b)
  | 93 :: t => (cutAtBracket? t).map fun (a, b) => (93 :: a, b)
  | t => cutAtBracket? t

/-- The ranges of a class; `none` when one runs backwards. A minus sign at the end stands for
itself. -/
def ranges? : List Nat → Option (List (Nat × Nat))
  | [] => some []
  | lo :: 45 :: hi :: r => if hi < lo then none else (ranges? r).map ((lo, hi) :: ·)
  | c :: r => (ranges? r).map ((c, c) :: ·)

/-- The class with the given content. A class by name, such as `[:alpha:`, is not supported. -/
def class? (body : List Nat) : Option Glyph :=
  let (isNegated, content) := match body with
    | 33 :: r => (true, r)
    | r => (false, r)
  if content.getLast? = some 58 && (List.range content.length).any
      (fun i => (content.drop i).take 2 == [91, 58] && i + 2 < content.length) then none
  else (ranges? content).map (.among isNegated)

theorem length_cutAtBracket?_lt {t a b : List Nat} (h : cutAtBracket? t = some (a, b)) :
    b.length < t.length := by
  induction t generalizing a b with
  | nil => simp [cutAtBracket?] at h
  | cons c t ih =>
    unfold cutAtBracket? at h
    split at h
    · simp_all
    · obtain ⟨⟨x, y⟩, hx, hy⟩ := Option.map_eq_some_iff.1 h
      have := ih hx
      simp only [Prod.mk.injEq] at hy
      simp only [List.length_cons, ← hy.2]
      omega

theorem length_classBody?_lt {t a b : List Nat} (h : classBody? t = some (a, b)) :
    b.length < t.length := by
  unfold classBody? at h
  split at h
  · obtain ⟨⟨x, y⟩, hx, hy⟩ := Option.map_eq_some_iff.1 h
    have := length_cutAtBracket?_lt hx
    simp only [Prod.mk.injEq] at hy
    simp only [List.length_cons, ← hy.2]
    omega
  · obtain ⟨⟨x, y⟩, hx, hy⟩ := Option.map_eq_some_iff.1 h
    have := length_cutAtBracket?_lt hx
    simp only [Prod.mk.injEq] at hy
    simp only [List.length_cons, ← hy.2]
    omega
  · exact length_cutAtBracket?_lt h

def hasClass : List Nat → Bool
  | [] => false
  | 91 :: t => (classBody? t).isSome || hasClass t
  | _ :: t => hasClass t

/-- Glyphs of a pattern that is read bytewise. -/
def ofPlain (t : List Nat) : List Glyph :=
  t.map fun c => if c = 42 then .many else if c = 63 then .any else .one c

/-- Glyphs of a pattern with classes; `none` when a class is malformed. Inside one name, two stars
mean the same as one; elsewhere they cross slashes. -/
def parse? (isName : Bool) : List Nat → Option (List Glyph)
  | [] => some []
  | 42 :: 42 :: 47 :: t =>
    if isName then (parse? isName (42 :: 47 :: t)).map (.many :: ·)
    else (parse? isName t).map (.folders :: ·)
  | 42 :: 42 :: t =>
    if isName then (parse? isName (42 :: t)).map (.many :: ·)
    else (parse? isName t).map (.deep :: ·)
  | 42 :: t => (parse? isName t).map (.many :: ·)
  | 63 :: t => (parse? isName t).map (.any :: ·)
  | 91 :: t =>
    match h : classBody? t with
    | some (body, rest) =>
      have := length_classBody?_lt h
      match class? body, parse? isName rest with
      | some g, some gs => some (g :: gs)
      | _, _ => none
    | none => (parse? isName t).map (.one 91 :: ·)
  | c :: t => (parse? isName t).map (.one c :: ·)
termination_by t => t.length

end Glyph

end LineReview.PathRule
