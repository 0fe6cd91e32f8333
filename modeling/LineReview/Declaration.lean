import LineReview.Text.Basic

/-!
# Declarations found on a line

A classifier turns a line into declaration sites; the naming rules judge
them. Nothing else passes between the two, so any classifier will do.
-/

namespace LineReview

/-- What a declared identifier names. -/
inductive Role where
  | variableName
  | className
  | namespaceName
  | enumName
  | enumValue
  | unknown
deriving DecidableEq, Repr

namespace Role

def name : Role → String
  | .variableName => "variable"
  | .className => "class"
  | .namespaceName => "namespace"
  | .enumName => "enum"
  | .enumValue => "enum value"
  | .unknown => "unknown"

def ofByte (b : UInt8) : Role :=
  match b with
  | 0 => .variableName
  | 1 => .className
  | 2 => .namespaceName
  | 3 => .enumName
  | 4 => .enumValue
  | _ => .unknown

end Role

/-- Scope and qualifiers of a variable, as far as its line tells. -/
structure Context where
  inClass : Bool := false
  isStatic : Bool := false
  isConst : Bool := false
  isBool : Bool := false
  isGlobal : Bool := false
deriving DecidableEq, Repr

/-- One declaration. The column is the zero-based byte offset of the name; the context matters
for variables only. -/
structure Site where
  role : Role
  name : Text
  col : Int
  context : Context := {}
deriving DecidableEq, Repr

end LineReview
