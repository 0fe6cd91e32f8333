import LineReview.CommandLine.Run
import Std.Time.DateTime.Timestamp

/-!
# The command

The files that a call names are read from the disk, the program runs on them, and
what it changed is written back. A watch looks at the disk again and again.
-/

namespace LineReview.Disk

/-- A byte sequence as a string, for names that the system takes as strings. -/
def string (t : Text) : String := (String.fromUTF8? ⟨t.toArray⟩).getD ""

/-- The node at a path, with everything below it. Links are shown with the place they lead to. -/
partial def node? (path : String) : IO (Option Node) := do
  let place := (← IO.currentDir) / path
  try
    match (← place.symlinkMetadata).type with
    | .dir =>
      let mut entries := Entries.nil
      for e in ← place.readDir do
        if let some n ← node? (path ++ "/" ++ e.fileName) then
          entries := entries.insert (bytes e.fileName) n
      return some (.folder entries)
    | .symlink =>
      let target ← try pure (← IO.FS.realPath place).toString catch _ => pure (path ++ ".missing")
      return some (.link (bytes target))
    | .file => return some (.file (← IO.FS.readBinFile place).toList)
    | .other => return none
  catch _ => return none

/-- The targets of the links in a tree. -/
partial def targets : Node → List Text
  | .file _ => []
  | .link t => [t]
  | .folder es => es.toList.flatMap fun (_, n) => targets n

/-- Adds what the disk has at a path, with the folders on the way and their project files. -/
partial def add (fs : FileSystem) (path : Text) : IO FileSystem := do
  let names := Path.names (Path.absolute fs.workingDirectory path)
  let mut fs := fs
  for i in [0:names.length] do
    let way := names.take i
    let place := (← IO.currentDir) / string (Path.ofNames true way)
    unless ← place.isDir do return fs
    if (Node.get? way fs.root).isNone then fs := { fs with root := Node.set .empty way fs.root }
    let project := way ++ [ProjectFile.fileName]
    if let some n ← node? (string (Path.ofNames true project)) then
      fs := { fs with root := Node.set n project fs.root }
  match ← node? (string (Path.ofNames true names)) with
  | none => return fs
  | some n =>
    fs := { fs with root := Node.set n names fs.root }
    for t in targets n do
      if (Node.get? (Path.names t) fs.root).isNone then fs ← add fs t
    return fs

/-- The files that a call can touch: those that its arguments name, and the cache. -/
def load (e : Environment) (args : List Text) : IO FileSystem := do
  let here := Path.names (bytes (← IO.currentDir).toString)
  let values := args.filterMap fun a => (Arguments.splitValue a).2
  let caches := (if e.cacheHome = [] then [] else [Path.join e.cacheHome (bytes "codereview")])
    ++ (e.home.map fun h => Path.join h (bytes ".cache/codereview")).toList
  (args ++ values ++ caches).foldlM
    (fun fs p => if p = [] || p.contains 0 then pure fs else add fs p) ⟨Node.set .empty here .empty, here⟩

def write (changes : List FileChange) : IO Unit := do
  for c in changes do
    match c with
    | .put p (.file content) => IO.FS.writeBinFile (string p) ⟨content.toArray⟩
    | .put p (.folder _) => IO.FS.createDirAll (string p)
    | .put _ (.link _) => pure ()
    | .remove p => IO.FS.removeFile (string p)

def environment : IO Environment := do
  let now := (← Std.Time.Timestamp.now).toNanosecondsSinceUnixEpoch.val
  return {
    home := (← IO.getEnv "HOME").map bytes
    cacheHome := ((← IO.getEnv "XDG_CACHE_HOME").map bytes).getD []
    now := { seconds := now.fdiv 1000000000, nanoseconds := (now.fmod 1000000000).toNat } }

def flush (c : Console) : IO Console := do
  (← IO.getStdout).write ⟨c.stdout.toArray⟩
  (← IO.getStdout).flush
  (← IO.getStderr).write ⟨c.stderr.toArray⟩
  return { c with stdout := [], stderr := [] }

/-- Reports whenever the files have changed. -/
partial def follow (s : WatchSession) (args : List Text) (c : Console) :
    IO (Except CommandFailure Unit × Console) := do
  IO.sleep (s.quietPeriod.nanoseconds.toInt / 1000000).toNat.toUInt32
  let e ← environment
  let files ← load e args
  match (s.follow e (c.files.root.changes files.root)).run c with
  | (.error f, c) => return (.error f, s.close c)
  | (.ok _, c) =>
    write (files.root.changes c.files.root)
    follow s args (← flush c)

def finish (before : FileSystem) (r : Except CommandFailure Unit) (c : Console) :
    IO Program.Outcome := do
  write (before.root.changes c.files.root)
  return Program.finish r c

def run (args : List Text) : IO Program.Outcome := do
  let e ← environment
  let files ← load e args
  match (Program.watch e args).run { files } with
  | (.error f, c) => finish files (.error f) c
  | (.ok none, c) => finish files (.ok ()) c
  | (.ok (some s), c) =>
    match (s.report e).run c with
    | (.error f, c) => finish files (.error f) (s.close c)
    | (.ok (), c) =>
      write (files.root.changes c.files.root)
      let (r, c) ← follow s args (← flush c)
      return Program.finish r c

end LineReview.Disk

def main (args : List String) : IO UInt32 := do
  let o ← LineReview.Disk.run (args.map LineReview.bytes)
  (← IO.getStdout).write ⟨o.stdout.toArray⟩
  (← IO.getStderr).write ⟨o.stderr.toArray⟩
  return o.status.toUInt32
