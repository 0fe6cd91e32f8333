import LineReview.Path
import LineReview.PathRule.Glob
import LineReview.Text.Quoted
import LineReview.Text.Space

/-!
# Rules about paths

A rule includes or excludes the paths that its pattern matches; of several
matching rules the last one counts. A pattern without a slash inside is about
names. A pattern with one is about whole paths: it matches up to the end of a
path, from the start of the path or of any name in it. A slash at the end
restricts a pattern to folders and what lies below them.
-/

namespace LineReview

namespace PathRule

/-- What may follow the part of a path that a pattern matches. -/
inductive Ending where
  /-- Nothing. -/
  | whole
  /-- Something below it; nothing only if the path is a folder. -/
  | folder
  /-- Nothing, or something below it. -/
  | wholeOrBelow
  /-- Something below it. -/
  | below
deriving DecidableEq, Repr

def Ending.allows (e : Ending) (isFolder : Bool) : List Nat → Bool
  | [] => match e with
    | whole | wholeOrBelow => true
    | folder => isFolder
    | below => false
  | c :: _ => e != whole && c == slash

inductive Pattern where
  /-- About names: the last one, or any folder on the way. -/
  | name (inCodes : Bool) (glyphs : List Glyph) (foldersOnly : Bool)
  /-- About paths. -/
  | path (inCodes : Bool) (glyphs : List Glyph) (isAnchored : Bool) (ending : Ending)
deriving DecidableEq, Repr

/-- Why a pattern cannot be used. The pattern is kept as it was written. -/
inductive Malformed where
  | empty (pattern : Text)
  /-- A character class is malformed; the string tells the kind of pattern. -/
  | badClass (kind : String) (pattern : Text)
deriving DecidableEq, Repr

def Malformed.message : Malformed → Text
  | empty p => bytes "invalid pattern: empty after normalization (" ++ Text.quoted p ++ bytes ")"
  | badClass kind p =>
    bytes "invalid pattern: compile " ++ bytes kind ++ [32] ++ Text.quoted p
      ++ bytes ": error parsing regexp: invalid character class"

/-- The symbols of a text: its code points, or its bytes. -/
def symbols (inCodes : Bool) (t : Text) : List Nat :=
  if inCodes then Text.codes t else t.map (·.toNat)

/-- The symbols from the start and from behind every slash. -/
def starts : List Nat → List (List Nat)
  | [] => [[]]
  | t => t :: behind t
where
  behind : List Nat → List (List Nat)
    | [] => []
    | c :: t => if c = slash then t :: behind t else behind t

namespace Pattern

def accepts (p : Pattern) (names : List Text) (isFolder : Bool) : Bool :=
  match p with
  | name inCodes glyphs foldersOnly =>
    let one (n : Text) : Bool := Glyph.accepts List.isEmpty glyphs (symbols inCodes n)
    if foldersOnly then (if isFolder then names else names.dropLast).any one
    else (names.getLast?.map one).getD false
  | path inCodes glyphs isAnchored ending =>
    let t := symbols inCodes (Text.joinWith [47] names)
    let fits := Glyph.accepts (ending.allows isFolder) glyphs
    if isAnchored then fits t else (starts t).any fits

/-- No star, question mark or class occurs. -/
def isLiteral (t : List Nat) : Bool := !(t.contains 42 || t.contains 63 || Glyph.hasClass t)

def hasDeep : List Nat → Bool
  | 42 :: 42 :: _ => true
  | _ :: t => hasDeep t
  | [] => false

/-- Glyphs by code points; a pattern that is no proper UTF-8 has none. -/
def compile (isName : Bool) (kind : String) (raw core : Text) : Except Malformed (List Glyph) :=
  match if Text.isUtf8 core then Glyph.parse? isName (Text.codes core) else none with
  | some g => .ok g
  | none => .error (.badClass kind raw)

/-- Reads a pattern. White space around it does not count, and a backslash is a slash. -/
def read (raw : Text) : Except Malformed Pattern :=
  let t := Text.replaceByte 92 [47] (Text.trim raw)
  let isAnchored := t.head? = some 47
  let foldersOnly := t.getLast? = some 47
  let core := Text.dropTrailing (· == 47) (t.dropWhile (· == 47))
  let plain := symbols false core
  if core = [] then .error (.empty raw)
  else if !isAnchored && !core.contains 47 then
    if Glyph.hasClass plain then
      (compile true "component" raw core).map (.name true · foldersOnly)
    else .ok (.name false (Glyph.ofPlain plain) foldersOnly)
  else
    let front := core.take (core.length - 3)
    if core.drop (core.length - 3) = bytes "/**" && isLiteral (symbols false front) then
      .ok (.path false (Glyph.ofPlain (symbols false front)) isAnchored .below)
    else
      let ending :=
        if !foldersOnly then Ending.whole
        else if !isAnchored && isLiteral plain then .folder else .wholeOrBelow
      if Glyph.hasClass plain || hasDeep plain then
        (compile false (if foldersOnly then "dir pattern" else "path pattern") raw core).map
          (.path true · isAnchored ending)
      else .ok (.path false (Glyph.ofPlain plain) isAnchored ending)

end Pattern

end PathRule

structure PathRule where
  includes : Bool
  pattern : PathRule.Pattern
deriving DecidableEq, Repr

namespace PathRule

def read (includes : Bool) (raw : Text) : Except Malformed PathRule :=
  (Pattern.read raw).map (⟨includes, ·⟩)

/-- The names of a path as rules see it: without white space around it, a backslash being a slash. -/
def candidate (p : Text) : List Text :=
  (Path.names (Text.replaceByte 92 [47] (Text.trim p))).filter (· != Path.up)

/-- The verdict of the last rule that matches. -/
def verdict? (rules : List PathRule) (names : List Text) (isFolder : Bool) : Option Bool :=
  (rules.reverse.find? fun r => r.pattern.accepts names isFolder).map (·.includes)

/-- Rules for file extensions: an extension may be written with or without dot and star. -/
def extension? (e : Text) : Option Text :=
  let t := Text.stripped (Text.trim e) (bytes "*.")
  let t := Text.lowerAscii (t.dropWhile (· == 46))
  if t = [] then none else some (bytes "*." ++ t)

/-- Is the path one of those with the given extensions? Letters count in either case. -/
def hasExtension (rules : List PathRule) (p : Text) : Bool :=
  (verdict? rules ((candidate p).map Text.lowerAscii) false).getD false

end PathRule

end LineReview
