import LineReview.CommandLine.ScanFlags
import LineReview.Text.Case

/-!
# Commands

The commands with their flags, and how arguments choose one: the command is the
first word that is neither a flag nor the value of one. At that point only the
flags that all commands share are known, so any other flag is taken to have a
value behind it.
-/

namespace LineReview

/-- Fewest bytes that have to be inserted, deleted or replaced to turn one text into another. -/
def Text.editDistance (s t : Text) : Nat :=
  ((s.foldl row (List.range (t.length + 1))).getLast?).getD 0
where
  /-- The distances from the prefixes of `t`, for one more byte. -/
  row (old : List Nat) (b : UInt8) : List Nat :=
    let first := old.headD 0 + 1
    first :: cells b first t old
  cells (b : UInt8) (left : Nat) : Text → List Nat → List Nat
    | c :: t, diagonal :: up :: old =>
      let d := if b = c then diagonal else min (min up left) diagonal + 1
      d :: cells b d t (up :: old)
    | _, _ => []

inductive Command where
  /-- The program without a command. -/
  | root
  | check
  | watch
  | version
  | help
  | completion
deriving DecidableEq, Repr

namespace Command

def name : Command → String
  | root => "codereview"
  | check => "check"
  | watch => "watch"
  | version => "version"
  | help => "help"
  | completion => "completion"

/-- The commands that can be chosen, in the order in which they are proposed. -/
def choices : List Command := [check, watch, version, help, completion]

/-- Is the command proposed to someone who mistyped its name? -/
def isProposed (c : Command) : Bool := c ≠ help

def summary : Command → String
  | root => "Naming and formatting checker for C++ source trees"
  | check => "Review every C++ file under a directory"
  | watch => "Review a directory and review it again whenever a C++ file changes"
  | version => "Show codereview build fingerprints"
  | help => "Help about any command"
  | completion => "Generate the autocompletion script for the specified shell"

/-- Most operands that the command takes, if there is a limit. -/
def maxOperands? : Command → Option Nat
  | check | watch => some 1
  | _ => none

def sharedFlags : List Flag :=
  [{ name := "color", initial := .word (bytes "auto"), meaning := "colorize output (auto|on|off)" },
   { name := "quiet", initial := .switch false, meaning := "suppress non-essential output" },
   { name := "timings", initial := .switch false, meaning := "show timing information" },
   { name := "config", initial := .word [],
     meaning := "path to a .codereview.toml (default: search upwards from the scanned directory)" },
   { name := "no-config", initial := .switch false, meaning := "ignore .codereview.toml files" },
   { name := "trace", initial := .word [], meaning := "trace output file (- for stderr)" },
   { name := "trace-level", initial := .word (bytes "off"),
     meaning := "trace level (off|error|phase|detail|debug)" },
   { name := "trace-mode", initial := .word (bytes "stream"),
     meaning := "trace storage mode (stream|ring)" },
   { name := "trace-ring-size", initial := .number 4096, meaning := "events kept in ring mode" },
   { name := "trace-heartbeat", initial := .duration ⟨0⟩,
     meaning := "emit heartbeat events at this interval (0 disables)" },
   { name := "cpu-profile", initial := .word [], meaning := "write a CPU profile to this file" },
   { name := "mem-profile", initial := .word [], meaning := "write a heap profile to this file" },
   { name := "runtime-trace", initial := .word [],
     meaning := "write a Go runtime trace to this file" }]

def ownFlags : Command → List Flag
  | check =>
    ScanFlags.table ++
      [{ name := "format", initial := .word (bytes "text"),
         meaning := "output format (text|short|json|sarif)" },
       { name := "fullpath", initial := .switch false, meaning := "emit absolute file paths in output" },
       { name := "show-source", initial := .switch false,
         meaning := "quote the offending source line under each diagnostic" },
       { name := "fail-on-diagnostics", initial := .switch false,
         meaning := "exit with status 1 when any diagnostic or failure is found" },
       { name := "ui", initial := .word (bytes "off"), meaning := "progress view (auto|on|off)" }]
  | watch =>
    ScanFlags.table ++
      [{ name := "format", initial := .word (bytes "text"), meaning := "output format (text|short)" },
       { name := "debounce", initial := .duration ⟨300000000⟩,
         meaning := "quiet period before a rescan" }]
  | version =>
    [{ name := "hash", initial := .switch false, meaning := "include git commit hash" },
     { name := "date", initial := .switch false, meaning := "include build timestamp" },
     { name := "full", initial := .switch false,
       meaning := "show every recorded bit of build metadata" },
     { name := "format", initial := .word (bytes "pretty"), meaning := "output format (pretty|json)" }]
  | root | help | completion => []

/-- The flags that ask for a page about the command and, without a command, for the version. -/
def standardFlags (c : Command) : List Flag :=
  { name := "help", letter := some 'h', initial := .switch false, meaning := "help for " ++ c.name } ::
    (if c = root then
      [{ name := "version", letter := some 'v', initial := .switch false,
         meaning := "version for codereview" }]
     else [])

def flags (c : Command) : List Flag := c.ownFlags ++ c.standardFlags ++ sharedFlags

/-- The commands whose names resemble a word: at most two edits away, or beginning with it. -/
def similar (word : Text) : List String :=
  (choices.filter fun c =>
      c.isProposed && (Text.editDistance (Text.lowerWord word) (bytes c.name) ≤ 2
        || Text.startsWith (bytes c.name) (Text.lowerWord word))).map (·.name)

/-! ## Choosing a command -/

/-- Is the argument, as far as the shared flags tell, followed by a value of its own? -/
def takesNext (arg : Text) : Bool :=
  match arg with
  | 45 :: 45 :: name =>
    !arg.contains 61 && !(sharedFlags.any fun f => f.isSwitch && bytes f.name == name)
  | [45, b] => b != 61
  | _ => false

/-- The words among the arguments. A flag with at most one argument behind it ends the search. -/
def wordsOf (args : List Text) : List Text :=
  match args with
  | [] => []
  | arg :: rest =>
    if arg = [45, 45] then []
    else if takesNext arg then match rest with
      | _ :: next :: rest => wordsOf (next :: rest)
      | _ => []
    else if arg ≠ [] && arg.head? ≠ some 45 then arg :: wordsOf rest
    else wordsOf rest
termination_by args.length

def dropWord (word : Text) (args : List Text) : List Text :=
  match args with
  | [] => []
  | arg :: rest =>
    if arg = [45, 45] then arg :: rest
    else if takesNext arg then match rest with
      | [] => [arg]
      | value :: rest => arg :: value :: dropWord word rest
    else if arg.head? ≠ some 45 && arg = word then rest
    else arg :: dropWord word rest
termination_by args.length

/-- The command that arguments ask for, and the arguments that are left for it. -/
def choose (args : List Text) : Except ArgumentError (Command × List Text) :=
  match wordsOf args with
  | [] => .ok (root, args)
  | word :: _ =>
    match choices.find? fun c => bytes c.name == word with
    | some c => .ok (c, dropWord word args)
    | none => .error (.unknownCommand word (similar word))

end Command

end LineReview
