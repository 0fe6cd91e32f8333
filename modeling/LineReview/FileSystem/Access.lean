import LineReview.FileSystem.Tree
import LineReview.Path

/-!
# Access to files by path

Paths are resolved name by name: a link that is met on the way is followed,
up to a fixed number of times, and `..` leads to the folder above the one that
was reached. Every operation says why it failed.
-/

namespace LineReview

inductive FileError where
  | notFound
  | notFolder
  | isFolder
  | tooManyLinks
  | nameTooLong
  | invalid
  | alreadyThere
  | notEmpty
  | busy
deriving DecidableEq, Repr

namespace FileError

def message : FileError → String
  | notFound => "no such file or directory"
  | notFolder => "not a directory"
  | isFolder => "is a directory"
  | tooManyLinks => "too many levels of symbolic links"
  | nameTooLong => "file name too long"
  | invalid => "invalid argument"
  | alreadyThere => "file exists"
  | notEmpty => "directory not empty"
  | busy => "device or resource busy"

end FileError

/-- A failed operation, the path it was asked for and the reason. -/
structure AccessError where
  action : String
  path : Text
  reason : FileError
deriving DecidableEq, Repr

def AccessError.message (e : AccessError) : Text :=
  bytes e.action ++ [32] ++ e.path ++ bytes ": " ++ bytes e.reason.message

/-- All files, and the folder that relative paths start from. -/
structure FileSystem where
  root : Node
  /-- Names of the working directory. -/
  here : List Text

namespace FileSystem

def workingDirectory (fs : FileSystem) : Text := Path.ofNames true fs.here

/-- The names on a path as they are written, without empty ones. -/
def pieces (p : Text) : List Text := (Text.splitOn 47 p).filter (· ≠ [])

def maxLinks : Nat := 40

/-- Longest name and, counting the byte that ends it, longest path. -/
def maxName : Nat := 255
def maxPath : Nat := 4096

/-- Follows the names from a position, which is a list of names in reverse, up to the first link:
`jump` goes on from the position and with the names that the link leads to. The last name is
followed as a link only when `follow` is set. The position found need not exist when it is
only its last name that is missing: it comes with the node that stands there, if any. -/
def descend (root : Node) (follow : Bool)
    (jump : List Text → List Text → Except FileError (List Text × Option Node)) (at_ : List Text) :
    List Text → Except FileError (List Text × Option Node)
  | [] => .ok (at_, root.get? at_.reverse)
  | name :: rest =>
    match root.get? at_.reverse with
    | none => .error .notFound
    | some (.folder es) =>
      if maxName < name.length then .error .nameTooLong
      else if name = [46] then descend root follow jump at_ rest
      else if name = [46, 46] then descend root follow jump at_.tail rest
      else match es.find? name with
        | none => if rest = [] then .ok (name :: at_, none) else .error .notFound
        | some (.link target) =>
          if rest = [] && !follow then .ok (name :: at_, some (.link target))
          else jump (if Path.isAbsolute target then [] else at_) (pieces target ++ rest)
        | some _ => descend root follow jump (name :: at_) rest
    | some _ => .error .notFolder

def walk (root : Node) (follow : Bool) :
    Nat → List Text → List Text → Except FileError (List Text × Option Node)
  | 0 => descend root follow fun _ _ => .error .tooManyLinks
  | links + 1 => descend root follow (walk root follow links)

/-- Position and node of a path. A slash at the end asks for a folder. -/
def locate (fs : FileSystem) (follow : Bool) (p : Text) :
    Except FileError (List Text × Option Node) := do
  if p.contains 0 then throw .invalid
  if p = [] then throw .notFound
  if maxPath ≤ p.length then throw .nameTooLong
  let mustBeFolder := p.getLast? = some 47
  let start := if Path.isAbsolute p then [] else fs.here.reverse
  let (pos, n) ← walk fs.root (follow || mustBeFolder) maxLinks start (pieces p)
  match n with
  | some (.folder _) => pure (pos.reverse, n)
  | some _ => if mustBeFolder then throw .notFolder else pure (pos.reverse, n)
  | none => pure (pos.reverse, n)

def lookup (fs : FileSystem) (follow : Bool) (p : Text) : Except FileError Node := do
  match ← fs.locate follow p with
  | (_, some n) => pure n
  | (_, none) => throw .notFound

def stat (fs : FileSystem) (p : Text) : Except AccessError Node :=
  match fs.lookup true p with
  | .ok n => .ok n
  | .error r => .error ⟨"stat", p, r⟩

/-- The node at a path, links not followed at its end. -/
def lstat (fs : FileSystem) (p : Text) : Except AccessError Node :=
  match fs.lookup false p with
  | .ok n => .ok n
  | .error r => .error ⟨"lstat", p, r⟩

def read (fs : FileSystem) (p : Text) : Except AccessError Text :=
  match fs.lookup true p with
  | .ok (.file content) => .ok content
  | .ok (.folder _) => .error ⟨"read", p, .isFolder⟩
  | .ok (.link _) => .error ⟨"open", p, .tooManyLinks⟩
  | .error r => .error ⟨"open", p, r⟩

def list (fs : FileSystem) (p : Text) : Except AccessError Entries :=
  match fs.lookup true p with
  | .ok (.folder es) => .ok es
  | .ok _ => .error ⟨"open", p, .notFolder⟩
  | .error r => .error ⟨"open", p, r⟩

def write (fs : FileSystem) (p content : Text) : Except AccessError FileSystem :=
  match fs.locate true p with
  | .error r => .error ⟨"open", p, r⟩
  | .ok (_, some (.folder _)) => .error ⟨"open", p, .isFolder⟩
  | .ok (pos, _) =>
    if p.getLast? = some 47 then .error ⟨"open", p, .isFolder⟩
    else .ok { fs with root := Node.set (.file content) pos fs.root }

/-- A path without the slashes behind it. -/
def bare (p : Text) : Text := if p.length ≤ 1 then p else Text.dropTrailing (· == 47) p

def makeFolder (fs : FileSystem) (p : Text) : Except FileError FileSystem :=
  match fs.locate false (bare p) with
  | .error r => .error r
  | .ok (_, some _) => .error .alreadyThere
  | .ok (pos, none) => .ok { fs with root := Node.set .empty pos fs.root }

/-- What stands before the last name of a path; empty when that is nothing or the root. -/
def before (p : Text) : Text :=
  let front := ((Text.dropTrailing (· == 47) p).reverse.dropWhile (· != 47)).reverse
  if front.length ≤ 1 then [] else front.dropLast

/-- Makes the folders of a path that are missing, from the front of the path on; those that were
made before a failure stay. The first argument bounds the number of names. -/
def attemptFoldersFuel : Nat → FileSystem → Text → FileSystem × Option AccessError
  | 0, fs, p => (fs, some ⟨"mkdir", p, .notFound⟩)
  | fuel + 1, fs, p =>
    match fs.lookup true p with
    | .ok (.folder _) => (fs, none)
    | .ok _ => (fs, some ⟨"mkdir", p, .notFolder⟩)
    | .error _ =>
      match (if before p = [] then (fs, none) else attemptFoldersFuel fuel fs (before p)) with
      | (fs, some e) => (fs, some e)
      | (fs, none) =>
        match fs.makeFolder p with
        | .ok fs => (fs, none)
        | .error r =>
          match fs.lookup false p with
          | .ok (.folder _) => (fs, none)
          | _ => (fs, some ⟨"mkdir", p, r⟩)

def attemptFolders (fs : FileSystem) (p : Text) : FileSystem × Option AccessError :=
  attemptFoldersFuel (p.length + 1) fs p

def makeFolders (fs : FileSystem) (p : Text) : Except AccessError FileSystem :=
  match fs.attemptFolders p with
  | (fs, none) => .ok fs
  | (_, some e) => .error e

/-- Makes a new empty file, and tells its position. -/
def create (fs : FileSystem) (p : Text) : Except AccessError (List Text × FileSystem) :=
  match fs.locate false p with
  | .error r => .error ⟨"open", p, r⟩
  | .ok (_, some _) => .error ⟨"open", p, .alreadyThere⟩
  | .ok (pos, none) => .ok (pos, { fs with root := Node.set (.file []) pos fs.root })

/-- Does a path end in a name, and not in a step or at the root? -/
def isNamed (p : Text) : Bool :=
  match (pieces p).getLast? with
  | some name => name ≠ [46] && name ≠ Path.up
  | none => false

/-- Moves what stands at a path to another one, over a file or a link but not over a folder. A
folder is not moved into itself. -/
def rename (fs : FileSystem) (old new : Text) : Except FileError FileSystem :=
  match fs.locate false (bare old) with
  | .error r => .error r
  | .ok (_, none) => .error .notFound
  | .ok (source, some x) =>
    match fs.locate false (bare new) with
    | .error r => .error r
    | .ok (target, there) =>
      if there.any Node.isFolder && (source ≠ target || old = new) then .error .alreadyThere
      else if !isNamed old || !isNamed new then .error .busy
      else if !x.isFolder && (bare old ≠ old || bare new ≠ new) then .error .notFolder
      else if source = target then .ok fs
      else if source.isPrefixOf target then .error .invalid
      else if there.isSome && x.isFolder then .error .notFolder
      else .ok { fs with root := Node.set x target (Node.remove source fs.root) }

/-- Takes away a file, a link or a folder with all it holds; nothing happens when there is none. -/
def removeAll (fs : FileSystem) (p : Text) : FileSystem :=
  match fs.locate false p with
  | .ok (pos, some _) => { fs with root := fs.root.remove pos }
  | _ => fs

end FileSystem

end LineReview
