import LineReview.Declaration
import LineReview.Diagnostic.Bag
import LineReview.Naming.Shape

/-!
# Naming rules

Variables are judged by the first rule of a table whose condition on the
context holds; the last rule has none. The other roles have one rule each.
-/

namespace LineReview

/-- A shape that names must have, and what is said when they do not. -/
structure Rule where
  shape : Shape
  code : Code
  message : String
  applies : Context → Bool := fun _ => true

namespace Rule

/-- What a variable must be named like when nothing special is known about it. -/
def general : Rule :=
  { shape := .pascal, code := .general, message := "general naming must be PascalCase" }

/-- The rules for variables; the first one that applies decides. -/
def forVariables : List Rule :=
  [{ shape := .staticConst, code := .staticConstMember,
     message := "static const member must use _k + PascalCase",
     applies := fun c => c.inClass && c.isStatic && c.isConst },
   { shape := .member, code := .staticMember,
     message := "static member must use _ + PascalCase",
     applies := fun c => c.inClass && c.isStatic },
   { shape := .staticConst, code := .constMember,
     message := "const member must use _k + PascalCase",
     applies := fun c => c.inClass && c.isConst },
   { shape := .member, code := .member,
     message := "member must use _ + PascalCase",
     applies := fun c => c.inClass },
   { shape := .const, code := .const,
     message := "const must use k + PascalCase",
     applies := fun c => c.isConst },
   { shape := .globalBool, code := .globalBool,
     message := "global bool must use kb + PascalCase",
     applies := fun c => c.isBool && c.isGlobal },
   { shape := .bool, code := .bool,
     message := "bool must use b + PascalCase",
     applies := fun c => c.isBool },
   general]

def select (c : Context) : Rule := (forVariables.find? (·.applies c)).getD general

/-- The rule that judges a site. A site of unknown role is judged like a plain variable. -/
def forSite (s : Site) : Rule :=
  match s.role with
  | .variableName => select s.context
  | .className =>
    { shape := .pascal, code := .className, message := "class name must be PascalCase" }
  | .namespaceName =>
    { shape := .pascal, code := .namespaceName, message := "namespace name must be PascalCase" }
  | .enumName =>
    { shape := .const, code := .enumName, message := "enum name must use k + PascalCase" }
  | .enumValue =>
    { shape := .const, code := .enumValue, message := "enum value must use k + PascalCase" }
  | .unknown => select {}

end Rule

namespace Site

/-- One-based column of the name, or zero when it has no 32-bit number. -/
def reportedColumn (s : Site) : UInt32 :=
  let c := s.col + 1
  if 0 ≤ c && c < 4294967296 then c.toNat.toUInt32 else 0

/-- The violation at a site, if its name breaks the rule for it. -/
def check (severity : Severity) (line : UInt32) (s : Site) : Option Diagnostic :=
  let rule := Rule.forSite s
  if rule.shape.accepts s.name then none
  else some
    { severity, code := rule.code, line, col := s.reportedColumn,
      message := bytes rule.message ++ bytes " (got '" ++ s.name ++ bytes "')" }

def checkAll (severity : Severity) (line : UInt32) (sites : List Site) : List Diagnostic :=
  sites.filterMap (check severity line)

end Site

end LineReview
