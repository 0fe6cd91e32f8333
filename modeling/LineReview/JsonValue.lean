import LineReview.Text.Utf8

/-!
# JSON documents

A JSON value and its text, in one line or indented by two spaces. Strings are
byte texts: bytes that spell no code point become replacement characters, and
characters that are unsafe in markup or scripts are escaped.
-/

namespace LineReview

/-- A JSON value; the members of an object keep their order. -/
inductive JsonValue where
  | null
  | bool (b : Bool)
  /-- A number by its text. -/
  | number (t : Text)
  | string (t : Text)
  | array (items : List JsonValue)
  | object (members : List (String × JsonValue))

namespace JsonValue

def nat (n : Nat) : JsonValue := number (Text.decimal n)

def str (s : String) : JsonValue := string (bytes s)

def escapeRune (r : Rune) : Text :=
  let c := r.code
  if r.isStray then [0xEF, 0xBF, 0xBD]
  else if c = 34 || c = 92 then 92 :: r.raw
  else if c = 8 then bytes "\\b"
  else if c = 9 then bytes "\\t"
  else if c = 10 then bytes "\\n"
  else if c = 12 then bytes "\\f"
  else if c = 13 then bytes "\\r"
  else if c < 0x20 || c = 0x3C || c = 0x3E || c = 0x26 || c = 0x2028 || c = 0x2029 then
    bytes "\\u" ++ Text.hexPadded 4 c
  else r.raw

def quote (t : Text) : Text := 34 :: (Text.runes t).flatMap escapeRune ++ [34]

mutual

def compact : JsonValue → Text
  | null => bytes "null"
  | bool b => Text.ofBool b
  | number t => t
  | string t => quote t
  | array [] => bytes "[]"
  | array (x :: xs) => [91] ++ compact x ++ compactItems xs ++ [93]
  | object [] => bytes "\x7b\x7d"
  | object ((k, x) :: xs) =>
    [123] ++ quote (bytes k) ++ [58] ++ compact x ++ compactMembers xs ++ [125]

def compactItems : List JsonValue → Text
  | [] => []
  | x :: xs => 44 :: compact x ++ compactItems xs

def compactMembers : List (String × JsonValue) → Text
  | [] => []
  | (k, x) :: xs => 44 :: quote (bytes k) ++ [58] ++ compact x ++ compactMembers xs

end

def lineBreak (depth : Nat) : Text := 10 :: List.replicate (2 * depth) 32

mutual

/-- The value over several lines, its own lines indented to the depth. -/
def indented (depth : Nat) : JsonValue → Text
  | null => bytes "null"
  | bool b => Text.ofBool b
  | number t => t
  | string t => quote t
  | array [] => bytes "[]"
  | array (x :: xs) =>
    [91] ++ lineBreak (depth + 1) ++ indented (depth + 1) x ++ indentedItems (depth + 1) xs
      ++ lineBreak depth ++ [93]
  | object [] => bytes "\x7b\x7d"
  | object ((k, x) :: xs) =>
    [123] ++ lineBreak (depth + 1) ++ quote (bytes k) ++ bytes ": " ++ indented (depth + 1) x
      ++ indentedMembers (depth + 1) xs ++ lineBreak depth ++ [125]

def indentedItems (depth : Nat) : List JsonValue → Text
  | [] => []
  | x :: xs => 44 :: lineBreak depth ++ indented depth x ++ indentedItems depth xs

def indentedMembers (depth : Nat) : List (String × JsonValue) → Text
  | [] => []
  | (k, x) :: xs =>
    44 :: lineBreak depth ++ quote (bytes k) ++ bytes ": " ++ indented depth x
      ++ indentedMembers depth xs

end

end JsonValue

end LineReview
