import LineReview.FileSystem.Access

/-!
# Changes to files

Two states of the files differ by a list of changes: what has to be put and what
has to be taken away. Carried out one after the other on the first state they
give the second one.
-/

namespace LineReview

inductive FileChange where
  | put (path : Text) (node : Node)
  | remove (path : Text)

namespace FileChange

def apply (fs : FileSystem) : FileChange → FileSystem
  | put p n => { fs with root := Node.set n (Path.names (Path.absolute fs.workingDirectory p)) fs.root }
  | remove p => fs.removeAll p

/-- The path under which a new file shows: that of the first folder on the way to it that was not
there before, and otherwise its own. -/
def appearing (before : FileSystem) (p : Text) : Text :=
  let names := Path.names p
  let ways := (List.range names.length).map fun i => Path.ofNames (Path.isAbsolute p) (names.take (i + 1))
  (ways.find? fun q => (before.lstat q).toOption.isNone).getD p

end FileChange

mutual

def Node.additions (path : Text) (before : Option Node) : Node → List FileChange
  | .file c => match before with
    | some (.file d) => if c = d then [] else [.put path (.file c)]
    | _ => [.put path (.file c)]
  | .link t => match before with
    | some (.link u) => if t = u then [] else [.put path (.link t)]
    | _ => [.put path (.link t)]
  | .folder es => match before with
    | some (.folder old) => Entries.additions path old es
    | _ => .put path .empty :: Entries.additions path .nil es

def Entries.additions (path : Text) (before : Entries) : Entries → List FileChange
  | .nil => []
  | .cons name n rest =>
    n.additions (path ++ 47 :: name) (before.find? name) ++ Entries.additions path before rest

end

mutual

/-- What has to be taken away below a path so that only what the second node has remains. -/
def Node.removals (path : Text) (after : Option Node) : Node → List FileChange
  | .folder es => match after with
    | some (.folder new) => Entries.removals path new es
    | some _ => []
    | none => [.remove path]
  | _ => match after with
    | some _ => []
    | none => [.remove path]

def Entries.removals (path : Text) (after : Entries) : Entries → List FileChange
  | .nil => []
  | .cons name n rest =>
    n.removals (path ++ 47 :: name) (after.find? name) ++ Entries.removals path after rest

end

/-- The changes that lead from one tree to another, with absolute paths. -/
def Node.changes (before after : Node) : List FileChange :=
  before.removals [] (some after) ++ after.additions [] (some before)

end LineReview
