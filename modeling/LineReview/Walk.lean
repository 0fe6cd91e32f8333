import LineReview.PathRule.File

/-!
# Finding the files to review

A walker lists the files below a root folder that have one of its extensions
and that no rule file excludes. Files come in the order of their names, folder
by folder. A folder that is excluded is not entered, and links are not followed.

A walk is a list of what it meets: files, and things that went wrong on the way.
Whoever takes only some of the files sees only what happened before the last of
them.
-/

namespace LineReview

inductive WalkerError where
  | noExtensions (given : List Text)
  | badExtension (e : PathRule.Malformed)
  | badRuleFileName
deriving DecidableEq, Repr

def WalkerError.message : WalkerError → Text
  | noExtensions given => bytes "no usable extensions in " ++ Text.quotedList given
  | badExtension e => bytes "compile extension rules: " ++ e.message
  | badRuleFileName => bytes "ignore rules: invalid rules file name"

structure WalkOptions where
  /-- Empty for the standard ones. -/
  extensions : List Text := []
  /-- Name of the rule files; empty for none. -/
  ignoreFile : Text := []
deriving DecidableEq, Repr

namespace WalkOptions

def standardExtensions : List Text := [".cpp", ".h", ".hpp", ".inl"].map bytes

def standardIgnoreFile : Text := bytes ".codereviewignore"

end WalkOptions

structure Walker where
  root : Text
  extensions : List PathRule
  /-- Name of the rule files, if there are any. -/
  ignoreFile : Option Text
deriving DecidableEq, Repr

inductive WalkItem where
  | file (path : Text)
  | trouble (message : Text)
deriving DecidableEq, Repr

namespace Walker

def make (root : Text) (o : WalkOptions) : Except WalkerError Walker := do
  let given := if o.extensions.isEmpty then WalkOptions.standardExtensions else o.extensions
  let patterns := given.filterMap PathRule.extension?
  if patterns.isEmpty then throw (.noExtensions given)
  let extensions ← (patterns.mapM (PathRule.read true)).mapError .badExtension
  if o.ignoreFile = [] then pure { root, extensions, ignoreFile := none }
  else match RuleFile.name? o.ignoreFile with
    | some n => pure { root, extensions, ignoreFile := some n }
    | none => throw .badRuleFileName

def includes (w : Walker) (fs : FileSystem) (p : Text) (isFolder : Bool) :
    Except RuleFileError Bool :=
  match w.ignoreFile with
  | none => .ok true
  | some n => RuleFile.includes fs n w.root p isFolder

def wants (w : Walker) (fs : FileSystem) (p : Text) : Bool :=
  PathRule.hasExtension w.extensions p && (w.includes fs p false).toOption.getD false

/-- The path from the root; `none` when it lies elsewhere. -/
def relative? (w : Walker) (fs : FileSystem) (path : Text) : Option Text :=
  Path.inside? fs.workingDirectory w.root path

/-- Is the file at the path to be reviewed? The file need not exist. -/
def covers (w : Walker) (fs : FileSystem) (path : Text) : Bool :=
  ((w.relative? fs path).map (w.wants fs)).getD false

def outsideMessage (w : Walker) (path : Text) : Text := path ++ bytes " is outside " ++ w.root

/-- What is said when the walk comes to a folder, and whether it goes on into the folder. A folder
that cannot be judged is entered. -/
def judge (w : Walker) (fs : FileSystem) (path : Text) : List WalkItem × Bool :=
  match w.relative? fs path with
  | none => ([.trouble (w.outsideMessage path)], true)
  | some p =>
    match w.includes fs p true with
    | .ok isIncluded => ([], isIncluded)
    | .error e => ([.trouble e.message], true)

def visitFile (w : Walker) (fs : FileSystem) (path : Text) : List WalkItem :=
  match w.relative? fs path with
  | none => [.trouble (w.outsideMessage path)]
  | some p => if w.wants fs p then [.file path] else []

mutual

/-- What the walk meets at the node with the given path. A folder is listed by its path, which may
be too long for that. -/
def visit (w : Walker) (fs : FileSystem) (path : Text) : Node → List WalkItem
  | .folder es =>
    (w.judge fs path).1 ++
      if (w.judge fs path).2 then
        match fs.list path with
        | .ok _ => visitAll w fs path es
        | .error e => [.trouble e.message]
      else []
  | .file _ => visitFile w fs path
  | .link _ => visitFile w fs path

def visitAll (w : Walker) (fs : FileSystem) (path : Text) : Entries → List WalkItem
  | .nil => []
  | .cons name node rest => visit w fs (Path.join path name) node ++ visitAll w fs path rest

end

/-- A folder with what is listed under a path; anything else stays as it is. -/
def relist (fs : FileSystem) (path : Text) : Node → Node
  | .folder es => .folder ((fs.list path).toOption.getD es)
  | .file c => .file c
  | .link t => .link t

/-- The entries of the root folder, each folder with what is listed under its path. That path has
every `..` of the root carried out, and behind a link it may lead elsewhere. -/
def relisted (fs : FileSystem) (root : Text) : Entries → Entries
  | .nil => .nil
  | .cons name node rest =>
    .cons name (relist fs (Path.join root name) node) (relisted fs root rest)

/-- The whole walk. A root that is no folder has nothing below it. -/
def items (w : Walker) (fs : FileSystem) : List WalkItem :=
  match fs.lstat w.root with
  | .error e => [.trouble e.message]
  | .ok node => w.visitAll fs w.root (relisted fs w.root node.entries)

end Walker

namespace WalkItem

def files (items : List WalkItem) : List Text :=
  items.filterMap fun i => match i with
    | file p => some p
    | trouble _ => none

def troubles (items : List WalkItem) : List Text :=
  items.filterMap fun i => match i with
    | file _ => none
    | trouble m => some m

/-- The walk up to the `n`-th file. -/
def upTo : Nat → List WalkItem → List WalkItem
  | 0, _ => []
  | _, [] => []
  | n + 1, file p :: r => file p :: (if n = 0 then [] else upTo n r)
  | n + 1, trouble m :: r => trouble m :: upTo (n + 1) r

/-- A walk that was called off before it began. -/
def cancelled : List WalkItem := [trouble (bytes "context canceled")]

end WalkItem

end LineReview
