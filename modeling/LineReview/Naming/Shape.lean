import LineReview.Text.Basic

/-!
# Shapes of names

Every shape is a fixed lead followed by PascalCase: a capital ASCII letter and
then ASCII letters and digits only.
-/

namespace LineReview

inductive Shape where
  | pascal
  | member
  | const
  | staticConst
  | bool
  | globalBool
deriving DecidableEq, Repr

namespace Shape

def all : List Shape := [pascal, member, const, staticConst, bool, globalBool]

/-- The letters in front of the PascalCase part. -/
def lead : Shape → String
  | pascal => ""
  | member => "_"
  | const => "k"
  | staticConst => "_k"
  | bool => "b"
  | globalBool => "kb"

def name : Shape → String
  | pascal => "PascalCase"
  | member => "MemberPascal"
  | const => "ConstPascal"
  | staticConst => "StaticConstPascal"
  | bool => "BoolPascal"
  | globalBool => "GlobalBoolPascal"

/-- Short form for messages, such as `_k + PascalCase`. -/
def summary (s : Shape) : String :=
  if s = pascal then "PascalCase" else s.lead ++ " + PascalCase"

def expression (s : Shape) : String := "^" ++ s.lead ++ "[A-Z][A-Za-z0-9]*$"

def isCapital (b : UInt8) : Bool := 65 ≤ b && b ≤ 90

def isAlphanumeric (b : UInt8) : Bool := Text.isLetter b || Text.isDigit b

/-- A capital letter followed by letters and digits. -/
def isPascal : Text → Bool
  | [] => false
  | b :: t => isCapital b && t.all isAlphanumeric

def accepts (s : Shape) (name : Text) : Bool :=
  match Text.strip? name (bytes s.lead) with
  | some t => isPascal t
  | none => false

def ofByte? (b : UInt8) : Option Shape := all[b.toNat]?

end Shape

end LineReview
