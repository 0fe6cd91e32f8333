import LineReview.CommandLine.Check
import LineReview.CommandLine.Page
import LineReview.CommandLine.Watch

/-!
# The program

`run` takes the arguments of a call and the state of the files and gives the exit
status, what was printed and the files afterwards.
-/

namespace LineReview

/-- A text between back quotes where that shows it as it is, otherwise between double quotes. -/
def Text.backQuoted (t : Text) : Text :=
  let isPlain (r : Rune) : Bool :=
    !r.isStray && r.code != 0x60 && r.code != 0xFEFF && r.code != 0x7F && (32 ≤ r.code || r.code == 9)
  if (Text.runes t).all isPlain then 96 :: t ++ [96] else Text.quoted t

namespace Program

def version (e : Environment) (a : Arguments) : Task Unit := do
  let format := a.word "format"
  let showCommit := a.isOn "hash" || a.isOn "full"
  let showDate := a.isOn "date" || a.isOn "full"
  let color ← Setup.color a
  if Text.lowerWord format = bytes "pretty" then
    Task.print (e.build.pretty color showCommit showDate)
  else if Text.lowerWord format = bytes "json" then
    Task.print (e.build.json showCommit showDate)
  else throw (.versionFormat format)

def help (a : Arguments) : Task Unit :=
  match Command.choose a.operands with
  | .ok (c, _) => Task.print c.page
  | .error _ =>
    Task.tell (bytes "Unknown help topic ["
      ++ Text.joinWith [32] (a.operands.map Text.backQuoted) ++ bytes "]\n" ++ Command.root.usage false)

def perform (e : Environment) (args : List Text) (a : Arguments) : Command → Task Unit
  | .check => Check.run e args a
  | .watch => WatchSession.once e a
  | .version => version e a
  | .help => help a
  | c => Task.print c.page

def parse (args : List Text) : Except ArgumentError (Command × Arguments) := do
  let (c, rest) ← Command.choose args
  let a ← Arguments.read c.flags rest
  pure (c, a)

def operandError? (c : Command) (a : Arguments) : Option ArgumentError :=
  match c.maxOperands? with
  | some limit =>
    if limit < a.operands.length then some (.tooManyOperands limit a.operands.length) else none
  | none => none

/-- Carries out a call. A wish for help comes before everything else. -/
def task (e : Environment) (args : List Text) : Task Unit := do
  let (c, a) ← Task.ofExcept .arguments (parse args)
  if a.isOn "help" then Task.print c.page
  else if a.isOn "version" then
    Task.print (bytes "codereview version " ++ e.build.version ++ [10])
  else match operandError? c a with
    | some err => throw (.arguments err)
    | none => perform e args a c

/-- Begins the watch that a call asks for. There is none when the call asks for something else or
names no folder. -/
def watch (e : Environment) (args : List Text) : Task (Option WatchSession) := do
  let (c, a) ← Task.ofExcept .arguments (parse args)
  if c ≠ .watch || a.isOn "help" || (operandError? c a).isSome then
    task e args
    pure none
  else match Setup.rootOf (← get).files a.operands with
    | .ok root => some <$> WatchSession.start e a root
    | .error err =>
      Task.tell err.message
      pure none

structure Outcome where
  status : Nat
  stdout : Text
  stderr : Text
  files : FileSystem

/-- The outcome of a task. A failure is told on the error output. -/
def finish (r : Except CommandFailure Unit) (c : Console) : Outcome :=
  match r with
  | .ok () => ⟨0, c.stdout, c.stderr, c.files⟩
  | .error f =>
    let told := match f.message? with
      | some m => bytes "error: " ++ m ++ [10]
      | none => []
    ⟨1, c.stdout, c.stderr ++ told, c.files⟩

def run (e : Environment) (args : List Text) (files : FileSystem) : Outcome :=
  let (r, c) := (task e args).run { files }
  finish r c

end Program

end LineReview
