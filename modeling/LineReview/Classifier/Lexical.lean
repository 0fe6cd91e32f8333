import LineReview.Classifier.Brace
import LineReview.Declaration

/-!
# The line classifier

Sites are found by looking at one line alone. The class name comes first, then
the variables from left to right, then the namespace, then the enum and, when
asked for, its enumerators. A name that is reported as a type is not reported
as a variable again.
-/

namespace LineReview

structure ClassifierOptions where
  /-- Lines that open or continue a comment have no sites. -/
  skipComments : Bool := false
  /-- Lines with a using directive have no sites. -/
  skipUsingDirectives : Bool := false
  /-- The enumerators of a body on the line are sites. -/
  enumerators : Bool := false
deriving DecidableEq, Repr

namespace Classifier

/-- Words that a statement ends in or goes on after, and that declare nothing. -/
def undeclared : List Text :=
  ["break", "case", "continue", "default", "delete", "false", "goto", "new", "nullptr", "return",
    "this", "throw", "true"].map bytes

/-- Bytes before a name that make it an operand. -/
def operators : Text := bytes "=<>!+-%|^?["

def endsInUndeclared (t : Text) : Bool :=
  undeclared.any fun k =>
    t.endsWith k && (match t.reverse.drop k.length with
      | [] => true
      | b :: _ => !isWordByte b)

/-- Does what stands before a name, without its trailing white space, make the name an operand?
A slash divides, unless it is the end of a comment mark. -/
def makesOperand (before : Text) : Bool :=
  match before.reverse with
  | [] => false
  | 47 :: rest =>
    (match rest with
      | 47 :: _ | 42 :: _ => false
      | _ => true) || endsInUndeclared before
  | b :: _ => operators.contains b || endsInUndeclared before

def declares (line : Text) (c : Candidate) : Bool :=
  let name := c.name.of line
  let rest : Text := line.drop (c.stop - 1)
  !(match name with
      | b :: _ => Text.isDigit b
      | [] => false)
    && !undeclared.contains name
    && !rest.startsWith (bytes "==")
    && !makesOperand (Text.trimRight (line.take c.name.start))

def isSkipped (o : ClassifierOptions) (line : Text) : Bool :=
  (o.skipComments &&
    (let t := Text.trimLeft line
     t.startsWith (bytes "//") || t.startsWith (bytes "/*") || t.startsWith (bytes "*")))
  || (o.skipUsingDirectives && isUsingDirective line)

def enumeratorAt (item : Text) : Option Span := do
  let t := item.dropWhile Text.isBlank
  let (w, _) ← wordAt t
  if w.head?.any Text.isDigit then none else pure (spanOf item t w)

/-- The enumerators among the comma-separated items that begin at `offset`. -/
def enumeratorsFrom (offset : Nat) : List Text → List Site
  | [] => []
  | item :: items =>
    let rest := enumeratorsFrom (offset + item.length + 1) items
    match enumeratorAt item with
    | some r => { role := .enumValue, name := r.of item, col := (r.shift offset).start } :: rest
    | none => rest

def enumerators (line : Text) (body : Span) : List Site :=
  enumeratorsFrom body.start (Text.splitOn 44 (body.of line))

def siteAt (line : Text) (role : Role) (r : Span) : Site :=
  { role, name := r.of line, col := r.start }

/-- The variables of the line, apart from enumerators and names of types. -/
def variableSites (line : Text) (types : List Span) (enumBody : Option Span) : List Site :=
  let isStatic := Text.hasInfix (bytes "static") line
  let isConst := Text.hasInfix (bytes "const") line
  let isBool := Text.hasInfix (bytes "bool") line
  let record := recordBody? line
  (candidates line).filterMap fun c =>
    if !declares line c then none
    else if enumBody.any (·.contains c.name.start) || types.any (·.overlaps c.name) then none
    else some
      { role := .variableName
        name := c.name.of line
        col := c.name.start
        context :=
          { inClass := record.any (·.contains c.name.start)
            isStatic, isConst, isBool
            isGlobal := !Text.hasSpace (line.take c.start) } }

def classify (o : ClassifierOptions) (line : Text) : List Site :=
  if isSkipped o line then []
  else
    let cls := className? line
    let ns := namespaceName? line
    let en := enum? line
    let enumBody := en.bind fun e => braceBody? line e.name.stop
    let types := cls.toList ++ ns.toList ++ (en.map (·.name)).toList
    cls.toList.map (siteAt line .className)
      ++ variableSites line types enumBody
      ++ ns.toList.map (siteAt line .namespaceName)
      ++ (match en with
          | none => []
          | some e =>
            (if e.isScoped then [] else [siteAt line .enumName e.name])
              ++ (if o.enumerators then
                    match enumBody with
                    | some b => enumerators line b
                    | none => []
                  else []))

end Classifier

end LineReview
