import LineReview.Text.Basic

/-!
# Codes of findings

Every rule has a number. The thousands tell the family: 1 for naming, 2 for
layout, 4 for files that cannot be read. The code's identifier is the
family's letters followed by the number.
-/

namespace LineReview

structure Code where
  number : UInt16
deriving DecidableEq, Repr

namespace Code

def staticConstMember : Code := ⟨1001⟩
def staticMember : Code := ⟨1002⟩
def constMember : Code := ⟨1003⟩
def member : Code := ⟨1004⟩
def const : Code := ⟨1005⟩
def globalBool : Code := ⟨1006⟩
def bool : Code := ⟨1007⟩
def general : Code := ⟨1008⟩
def className : Code := ⟨1009⟩
def namespaceName : Code := ⟨1010⟩
def enumName : Code := ⟨1011⟩
def enumValue : Code := ⟨1012⟩
def lineLength : Code := ⟨2001⟩
def indentWidth : Code := ⟨2002⟩
def mixedIndent : Code := ⟨2003⟩

/-- The known codes in ascending order, with their titles. -/
def catalogue : List (Code × String) :=
  [(⟨1000⟩, "Naming information"),
   (staticConstMember, "Static const member naming"),
   (staticMember, "Static member naming"),
   (constMember, "Const member naming"),
   (member, "Member naming"),
   (const, "Constant naming"),
   (globalBool, "Global bool naming"),
   (bool, "Bool naming"),
   (general, "General naming"),
   (className, "Class naming"),
   (namespaceName, "Namespace naming"),
   (enumName, "Enum naming"),
   (enumValue, "Enum value naming"),
   (⟨2000⟩, "Formatting information"),
   (lineLength, "Line too long"),
   (indentWidth, "Indentation width"),
   (mixedIndent, "Mixed tabs and spaces in indentation"),
   (⟨4001⟩, "Failed to load file")]

/-- Identifier such as `NAM1008`; numbers outside the families share `E0000`. -/
def id (c : Code) : Text :=
  let n := c.number.toNat
  if 1000 ≤ n && n < 2000 then bytes "NAM" ++ Text.decimal n
  else if 2000 ≤ n && n < 3000 then bytes "FMT" ++ Text.decimal n
  else if 4000 ≤ n && n < 5000 then bytes "IO" ++ Text.decimal n
  else bytes "E0000"

def title (c : Code) : String := (catalogue.lookup c).getD "Unknown error"

def describe (c : Code) : Text := bytes "[" ++ c.id ++ bytes "]: " ++ bytes c.title

end Code

end LineReview
