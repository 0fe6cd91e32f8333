import LineReview.Text.Basic

/-!
# Trees of files

A node is a file with its content, a symbolic link with its target, or a
folder. The entries of a folder are kept in bytewise order of their names, the
order in which a folder is listed. A position in a tree is the list of
names that leads to it; links play no part on this level.
-/

namespace LineReview

mutual

inductive Node where
  | file (content : Text)
  | link (target : Text)
  | folder (entries : Entries)

inductive Entries where
  | nil
  | cons (name : Text) (node : Node) (rest : Entries)

end

namespace Entries

def toList : Entries → List (Text × Node)
  | nil => []
  | cons n x r => (n, x) :: r.toList

def find? (name : Text) : Entries → Option Node
  | nil => none
  | cons n x r => if n = name then some x else find? name r

/-- Puts a node under a name, in place of what stood there. -/
def insert (name : Text) (node : Node) : Entries → Entries
  | nil => cons name node nil
  | cons n x r =>
    if n = name then cons name node r
    else if Text.less name n then cons name node (cons n x r)
    else cons n x (insert name node r)

def erase (name : Text) : Entries → Entries
  | nil => nil
  | cons n x r => if n = name then erase name r else cons n x (erase name r)

end Entries

namespace Node

def empty : Node := folder .nil

def isFolder : Node → Bool
  | folder _ => true
  | _ => false

/-- The entries of a folder; other nodes have none. -/
def entries : Node → Entries
  | folder es => es
  | _ => .nil

def get? : List Text → Node → Option Node
  | [], n => some n
  | name :: rest, folder es => (es.find? name).bind (get? rest)
  | _ :: _, _ => none

/-- Puts a node at a position. What is missing or no folder on the way becomes a folder. -/
def set (new : Node) : List Text → Node → Node
  | [], _ => new
  | name :: rest, n =>
    let es := n.entries
    folder (es.insert name (set new rest ((es.find? name).getD empty)))

def remove : List Text → Node → Node
  | [], n => n
  | [name], n => match n with
    | folder es => folder (es.erase name)
    | _ => n
  | name :: rest, n => match n with
    | folder es => match es.find? name with
      | some child => folder (es.insert name (remove rest child))
      | none => n
    | _ => n

end Node

end LineReview
