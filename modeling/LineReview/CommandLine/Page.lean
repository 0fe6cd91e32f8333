import LineReview.CommandLine.Command

/-!
# Help pages

A page says what a command is for, how it is called, and which commands and
flags there are. Flags are listed by name, with the explanations in one column.
-/

namespace LineReview.Command

def about : Command → String
  | root =>
    "codereview walks a directory of C++ sources (.cpp, .h, .hpp, .inl) and\n" ++
    "reports identifiers that break the naming conventions and lines that break\n" ++
    "the layout rules."
  | check =>
    "Review walks the directory recursively, checks every .cpp, .h, .hpp and\n" ++
    ".inl file and prints the violations grouped by file. A missing or invalid\n" ++
    "directory is reported without scanning."
  | help =>
    "Help provides help for any command in the application.\n" ++
    "Simply type codereview help [path to command] for full details."
  | completion =>
    "Generate the autocompletion script for codereview for the specified shell.\n" ++
    "See each sub-command's help for details on how to use the generated script."
  | c => c.summary

/-- How the command is called, if it does something by itself. -/
def call? : Command → Option String
  | check => some "codereview check [flags] <directory>"
  | watch => some "codereview watch [flags] <directory>"
  | version => some "codereview version [flags]"
  | help => some "codereview help [command] [flags]"
  | root | completion => none

def subcommands : Command → List (String × String)
  | root => [check, completion, help, version, watch].map fun c => (c.name, c.summary)
  | completion =>
    ["bash", "fish", "powershell", "zsh"].map fun s => (s, "Generate the autocompletion script for " ++ s)
  | _ => []

def path (c : Command) : String := if c = root then c.name else root.name ++ " " ++ c.name

def padTo (width : Nat) (t : Text) : Text := t ++ List.replicate (width - t.length) 32

/-- The flag with the name of its value, indented; names stand below each other. -/
def flagColumn (f : Flag) : Text :=
  (if f.letter.isSome then bytes "  " else bytes "      ") ++ f.title
    ++ (if f.initial.kindName = "" then [] else bytes (" " ++ f.initial.kindName))

def flagLines (flags : List Flag) : List Text :=
  let sorted := flags.mergeSort fun f g => f.name ≤ g.name
  let width := (sorted.map fun f => (flagColumn f).length).foldl max 0
  sorted.map fun f =>
    padTo (width + 3) (flagColumn f) ++ bytes f.meaning
      ++ (match f.initial.shown? with
          | some t => bytes " (default " ++ t ++ bytes ")"
          | none => [])

def block (title : String) (ls : List Text) : List Text :=
  if ls = [] then [] else [[], bytes title] ++ ls

/-- The part of a page that follows the explanation. The flags that ask for pages are left out on
request. -/
def usage (c : Command) (showStandard : Bool) : Text :=
  let own := c.ownFlags ++ (if showStandard then c.standardFlags else [])
  let (localFlags, inherited) := if c = root then (own ++ sharedFlags, []) else (own, sharedFlags)
  let lines :=
    [bytes "Usage:"]
      ++ (c.call?.map fun s => bytes ("  " ++ s)).toList
      ++ (if c.subcommands = [] then [] else [bytes ("  " ++ c.path ++ " [command]")])
      ++ block "Available Commands:" (c.subcommands.map fun (n, s) =>
          bytes "  " ++ padTo 12 (bytes n) ++ bytes s)
      ++ block "Flags:" (flagLines localFlags)
      ++ block "Global Flags:" (flagLines inherited)
      ++ (if c.subcommands = [] then []
          else [[], bytes ("Use \"" ++ c.path ++ " [command] --help\" for more information about a command.")])
  lines.flatMap (· ++ [10])

def page (c : Command) : Text := bytes c.about ++ bytes "\n\n" ++ c.usage true

end LineReview.Command
