import LineReview.FileSystem.Access
import LineReview.Source.File

/-!
# Sets of source files

A file set keeps every file it was given, under consecutive identifiers, and
remembers the latest identifier of each path. Nothing is ever taken out.

Files are offered to a set in three ways. An offer is refused when the file cannot be
read or when no identifier is left.
-/

namespace LineReview

structure FileSet where
  files : Array SourceFile := #[]
  /-- The latest identifier of each path. -/
  latest : List (Text × UInt32) := []
  /-- The folder that reports start relative paths from; empty for the working directory. -/
  base : Text := []

namespace FileSet

def bind (path : Text) (id : UInt32) : List (Text × UInt32) → List (Text × UInt32)
  | [] => [(path, id)]
  | (p, i) :: r => if p = path then (p, id) :: r else (p, i) :: bind path id r

def size (s : FileSet) : Nat := s.files.size

def nextId (s : FileSet) : UInt32 := s.files.size.toUInt32

/-- Adds a file with the content as it is. -/
def add (s : FileSet) (path content : Text) (flags : FileFlags) : FileSet :=
  let f := { SourceFile.make path content flags with id := s.nextId }
  { s with files := s.files.push f, latest := bind f.path s.nextId s.latest }

def addVirtual (s : FileSet) (name content : Text) : FileSet :=
  s.add name content FileFlags.isVirtual

/-- Adds a file from disk, with its content normalised. -/
def load (s : FileSet) (fs : FileSystem) (path : Text) : Except AccessError FileSet := do
  let (content, flags) := SourceFile.normalise (← fs.read path)
  pure (s.add path content flags)

def get? (s : FileSet) (id : UInt32) : Option SourceFile := s.files[id.toNat]?

def latest? (s : FileSet) (path : Text) : Option UInt32 := s.latest.lookup (Path.clean path)

def find? (s : FileSet) (path : Text) : Option SourceFile := (s.latest? path).bind s.get?

def baseFolder (s : FileSet) (fs : FileSystem) : Text :=
  if s.base = [] then fs.workingDirectory else s.base

inductive Offer where
  /-- With the content as it is. -/
  | plain (path content : Text) (flags : FileFlags)
  /-- From memory, with the content as it is. -/
  | virtual (name content : Text)
  /-- From disk, as the files are at the time of the offer. -/
  | disk (fs : FileSystem) (path : Text)

inductive Refusal where
  | unreadable (e : AccessError)
  /-- All identifiers are in use. -/
  | full
deriving DecidableEq, Repr

/-- How many files have an identifier. -/
def capacity : Nat := UInt32.size

/-- The answer to an offer, which is the identifier of the file, and the set after it. A set that is
full takes no file, and nothing changes when an offer is refused. -/
def receive (s : FileSet) (x : Offer) : Except Refusal UInt32 × FileSet :=
  let enter (after : FileSet) : Except Refusal UInt32 × FileSet :=
    if s.size < capacity then (.ok s.nextId, after) else (.error .full, s)
  match x with
  | .plain path content flags => enter (s.add path content flags)
  | .virtual name content => enter (s.addVirtual name content)
  | .disk fs path =>
    match s.load fs path with
    | .ok after => enter after
    | .error e => (.error (.unreadable e), s)

end FileSet

end LineReview
