import LineReview.CommandLine.Flag

/-!
# Arguments

Arguments are flags and operands in any order. `--name value` and `--name=value`
give a flag a value, `--name` alone switches a switch on, and letters of switches
can be joined behind one dash. After `--` only operands follow.
-/

namespace LineReview

inductive ArgumentError where
  | badForm (argument : Text)
  | unknownFlag (name : Text)
  /-- A letter that no flag has, and the letters from it on. -/
  | unknownLetter (letter : UInt8) (group : Text)
  | missingValue (name : Text)
  | badValue (flag : Flag) (value : Text) (e : ValueError)
  | unknownCommand (name : Text) (similar : List String)
  | tooManyOperands (limit received : Nat)
deriving DecidableEq, Repr

namespace ArgumentError

/-- A letter in single quotes. A byte outside ASCII is shown by the byte that its two-byte encoding
begins with. -/
def quoteLetter (b : UInt8) : Text :=
  if b = 39 || b = 92 then [39, 92, b, 39]
  else if b = 34 then [39, 34, 39]
  else if 128 ≤ b then bytes (if b < 192 then "'Â'" else "'Ã'")
  else 39 :: (Text.runes [b]).flatMap Text.quoteRune ++ [39]

def message : ArgumentError → Text
  | badForm a => bytes "bad flag syntax: " ++ a
  | unknownFlag n => bytes "unknown flag: --" ++ n
  | unknownLetter b g => bytes "unknown shorthand flag: " ++ quoteLetter b ++ bytes " in -" ++ g
  | missingValue n => bytes "flag needs an argument: --" ++ n
  | badValue f v e =>
    bytes "invalid argument " ++ Text.quoted v ++ bytes " for " ++ Text.quoted f.title
      ++ bytes " flag: " ++ e.message
  | unknownCommand n similar =>
    bytes "unknown command " ++ Text.quoted n ++ bytes " for \"codereview\""
      ++ (if similar = [] then []
          else bytes "\n\nDid you mean this?\n" ++ similar.flatMap fun s => 9 :: bytes s ++ [10])
  | tooManyOperands limit received =>
    bytes "accepts at most " ++ Text.decimal limit ++ bytes " arg(s), received "
      ++ Text.decimal received

end ArgumentError

structure Arguments where
  /-- The flags that may be given. -/
  flags : List Flag
  /-- The values that were given, by name. -/
  given : List (String × FlagValue) := []
  operands : List Text := []

namespace Arguments

def given? (a : Arguments) (name : String) : Option FlagValue := a.given.lookup name

def set (a : Arguments) (f : Flag) (t : Text) : Except ArgumentError Arguments :=
  let old := a.given? f.name
  match (old.getD f.initial).read old.isSome t with
  | .ok v => .ok { a with given := (f.name, v) :: a.given }
  | .error e => .error (.badValue f t e)

/-- Reads the letters behind a dash. What begins with `test.` is left to test runners. -/
def letters (a : Arguments) : Text → Except ArgumentError Arguments
  | [] => .ok a
  | b :: group =>
    if Text.startsWith (b :: group) (bytes "test.") then .ok a
    else match a.flags.find? fun f => f.letter.map Text.byteOf == some b with
      | none => .error (.unknownLetter b (b :: group))
      | some f =>
        match group with
        | 61 :: v :: vs => a.set f (v :: vs)
        | _ => match a.set f (bytes "true") with
          | .ok a => letters a group
          | .error e => .error e

def splitValue (t : Text) : Text × Option Text :=
  match t.dropWhile (· != 61) with
  | _ :: v => (t.takeWhile (· != 61), some v)
  | [] => (t, none)

def readFrom (a : Arguments) (args : List Text) : Except ArgumentError Arguments :=
  match args with
  | [] => .ok a
  | arg :: rest =>
    match arg with
    | [45, 45] => .ok { a with operands := a.operands ++ rest }
    | 45 :: 45 :: text =>
      if text.head? = some 45 || text.head? = some 61 then .error (.badForm arg)
      else
        let (name, value) := splitValue text
        match a.flags.find? fun f => bytes f.name == name with
        | none => .error (.unknownFlag name)
        | some f =>
          match value, f.isSwitch with
          | some v, _ => match a.set f v with
            | .ok a => readFrom a rest
            | .error e => .error e
          | none, true => match a.set f (bytes "true") with
            | .ok a => readFrom a rest
            | .error e => .error e
          | none, false => match rest with
            | [] => .error (.missingValue name)
            | v :: rest => match a.set f v with
              | .ok a => readFrom a rest
              | .error e => .error e
    | 45 :: b :: group => match a.letters (b :: group) with
      | .ok a => readFrom a rest
      | .error e => .error e
    | _ => readFrom { a with operands := a.operands ++ [arg] } rest
termination_by args.length

def read (flags : List Flag) (args : List Text) : Except ArgumentError Arguments :=
  readFrom { flags } args

/-- The value of a flag: the one that was given, or the one it starts with. -/
def value? (a : Arguments) (name : String) : Option FlagValue :=
  (a.given? name).or ((a.flags.find? fun f => f.name == name).map (·.initial))

def isOn (a : Arguments) (name : String) : Bool := a.value? name == some (.switch true)

def word (a : Arguments) (name : String) : Text :=
  match a.value? name with
  | some (.word t) => t
  | _ => []

def number (a : Arguments) (name : String) : Int64 :=
  match a.value? name with
  | some (.number n) => n
  | _ => 0

def duration (a : Arguments) (name : String) : Duration :=
  match a.value? name with
  | some (.duration d) => d
  | _ => ⟨0⟩

end Arguments

end LineReview
