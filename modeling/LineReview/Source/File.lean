import LineReview.Digest
import LineReview.Path

/-!
# Source files

A source file is stored without a byte order mark and with plain line feeds;
flags remember what was taken away. The line index holds the offset of every
line feed. A line feed at the end opens no further line, so an empty file has
no lines at all.
-/

namespace LineReview

/-- Where a file came from and what was removed from it, one bit each. -/
abbrev FileFlags := UInt8

namespace FileFlags

/-- Made from memory, not read from a file. -/
def isVirtual : FileFlags := 1
def hadMark : FileFlags := 2
def hadReturns : FileFlags := 4

end FileFlags

structure SourceFile where
  id : UInt32 := 0
  path : Text
  content : Text
  /-- Offsets of the line feeds. -/
  lineIndex : Array UInt32
  hash : Text
  flags : FileFlags
deriving DecidableEq, Repr

namespace SourceFile

/-- The content without a byte order mark in front, and whether there was one. -/
def removeMark : Text → Text × Bool
  | 0xEF :: 0xBB :: 0xBF :: t => (t, true)
  | t => (t, false)

/-- Every carriage return before a line feed removed; others stay. -/
def removeReturns : Text → Text
  | [] => []
  | 13 :: 10 :: t => 10 :: removeReturns t
  | b :: t => b :: removeReturns t

def hasReturns : Text → Bool
  | [] => false
  | 13 :: 10 :: _ => true
  | _ :: t => hasReturns t

def normalise (content : Text) : Text × FileFlags :=
  let (t, mark) := removeMark content
  (removeReturns t,
    (if mark then FileFlags.hadMark else 0) ||| (if hasReturns t then FileFlags.hadReturns else 0))

/-- Offsets of the line feeds of a text that begins at `offset`. -/
def lineFeeds (offset : Nat) : Text → List UInt32
  | [] => []
  | b :: t => if b = 10 then offset.toUInt32 :: lineFeeds (offset + 1) t else lineFeeds (offset + 1) t

def make (path content : Text) (flags : FileFlags) : SourceFile :=
  { path := Path.clean path
    content
    lineIndex := (lineFeeds 0 content).toArray
    hash := Digest.sha256 content
    flags }

def ofBytes (name content : Text) : SourceFile :=
  let (t, flags) := normalise content
  make name t (FileFlags.isVirtual ||| flags)

def ofDisk (path content : Text) : SourceFile :=
  let (t, flags) := normalise content
  make path t flags

def lineCount (f : SourceFile) : Nat :=
  match f.content.getLast? with
  | none => 0
  | some b => if b = 10 then f.lineIndex.size else f.lineIndex.size + 1

/-- The line with the given one-based number, by its place in the index; empty when there is no
such line. -/
def line (f : SourceFile) (n : Nat) : Text :=
  if n = 0 || f.lineCount < n then []
  else
    let start := if n = 1 then 0 else (f.lineIndex.getD (n - 2) 0).toNat + 1
    let stop := match f.lineIndex[n - 1]? with
      | some i => i.toNat
      | none => f.content.length
    f.content.slice start stop

/-- The parts between line feeds; an empty part at the end is no line. -/
def splitLines (content : Text) : List Text :=
  let parts := Text.splitOn 10 content
  if parts.getLast? = some [] then parts.dropLast else parts

def number (n : UInt32) : List Text → List (UInt32 × Text)
  | [] => []
  | l :: ls => (n, l) :: number (n + 1) ls

def lines (f : SourceFile) : List (UInt32 × Text) := number 1 (splitLines f.content)

end SourceFile

end LineReview
