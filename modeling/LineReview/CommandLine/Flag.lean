import LineReview.Number.Integer
import LineReview.Text.Record
import LineReview.Time.Reading

/-!
# Flags

A flag has a name, a value it starts with and a sentence for the help page. The
starting value fixes the kind of the flag. A switch needs no value on the command
line, and only switches have a letter of their own.
-/

namespace LineReview

inductive FlagValue where
  | switch (b : Bool)
  | number (n : Int64)
  | word (t : Text)
  | duration (d : Duration)
  /-- A list that is written with commas and grows when the flag is repeated. -/
  | words (ts : List Text)
deriving DecidableEq, Repr

inductive ValueError where
  | notSwitch (t : Text)
  | notNumber (t : Text) (e : Integer.ReadError)
  | notDuration (t : Text) (e : Duration.ReadError)
  | notWords (e : Record.ReadError)
deriving DecidableEq, Repr

def ValueError.message : ValueError → Text
  | notSwitch t => bytes "strconv.ParseBool: parsing " ++ Text.quoted t ++ bytes ": invalid syntax"
  | notNumber t e => Integer.message t e
  | notDuration t e => e.message t
  | notWords e => e.message

namespace FlagValue

def switch? (t : Text) : Option Bool :=
  if ["1", "t", "T", "true", "TRUE", "True"].any (bytes · == t) then some true
  else if ["0", "f", "F", "false", "FALSE", "False"].any (bytes · == t) then some false
  else none

/-- The fields of a list; an empty text has none. -/
def wordList (t : Text) : Except Record.ReadError (List Text) :=
  if t = [] then .ok [] else Record.read t

/-- Reads a value of the same kind. A list that was given before is continued. -/
def read (old : FlagValue) (isGiven : Bool) (t : Text) : Except ValueError FlagValue :=
  match old with
  | switch _ => match switch? t with
    | some b => .ok (switch b)
    | none => .error (.notSwitch t)
  | number _ => match Integer.read t with
    | .ok n => .ok (number n)
    | .error e => .error (.notNumber t e)
  | word _ => .ok (word t)
  | duration _ => match Duration.read t with
    | .ok d => .ok (duration d)
    | .error e => .error (.notDuration t e)
  | words ts => match wordList t with
    | .ok us => .ok (words (if isGiven then ts ++ us else us))
    | .error e => .error (.notWords e)

/-- What a help page calls the value; a switch has none to name. -/
def kindName : FlagValue → String
  | switch _ => ""
  | number _ => "int"
  | word _ => "string"
  | duration _ => "duration"
  | words _ => "strings"

/-- The value as a help page shows it, unless it is the zero of its kind. -/
def shown? : FlagValue → Option Text
  | switch b => if b then some (bytes "true") else none
  | number n => if n = 0 then none else some (Text.decimalInt n.toInt)
  | word t => if t = [] then none else some (Text.quoted t)
  | duration d => if d = ⟨0⟩ then none else some d.text
  | words ts => if ts = [] then none else some (bytes "[" ++ Text.joinWith [44] ts ++ bytes "]")

end FlagValue

structure Flag where
  name : String
  letter : Option Char := none
  initial : FlagValue
  meaning : String
deriving DecidableEq, Repr

namespace Flag

def isSwitch (f : Flag) : Bool :=
  match f.initial with
  | .switch _ => true
  | _ => false

/-- The flag with its dashes, behind its letter if it has one. -/
def title (f : Flag) : Text :=
  (match f.letter with
    | some c => bytes "-" ++ [Text.byteOf c] ++ bytes ", "
    | none => [])
    ++ bytes "--" ++ bytes f.name

end Flag

end LineReview
