import LineReview.Text.Basic

/-!
# Paths

A path is a text with slashes. Its meaning is whether it starts at the root
and the list of names on the way; `clean` is the shortest spelling with the
same meaning. Questions about two paths are asked of absolute ones, that is
after joining a relative path to the working directory.
-/

namespace LineReview.Path

def isAbsolute : Text → Bool
  | 47 :: _ => true
  | _ => false

def up : Text := [46, 46]

/-- The names of a path in reverse, one more name on the way: an empty name and `.` change
nothing, `..` takes the last name back. Above the root there is only the root; a relative
path keeps the steps that leave it. -/
def descend (rooted : Bool) (stack : List Text) (name : Text) : List Text :=
  if name = [] || name = [46] then stack
  else if name = up then
    match stack with
    | [] => if rooted then [] else [up]
    | top :: rest => if top = up then up :: stack else rest
  else name :: stack

def names (p : Text) : List Text :=
  ((Text.splitOn 47 p).foldl (descend (isAbsolute p)) []).reverse

def ofNames (rooted : Bool) (ns : List Text) : Text :=
  if rooted then 47 :: Text.joinWith [47] ns
  else if ns = [] then [46] else Text.joinWith [47] ns

/-- The shortest spelling of a path. -/
def clean (p : Text) : Text := ofNames (isAbsolute p) (names p)

def absolute (cwd p : Text) : Text := if isAbsolute p then clean p else clean (cwd ++ 47 :: p)

/-- Joins a name or relative path to a directory; an empty directory adds nothing. -/
def join (dir p : Text) : Text :=
  if dir = [] then (if p = [] then [] else clean p)
  else if p = [] then clean dir else clean (dir ++ 47 :: p)

def parent (p : Text) : Text :=
  clean ((p.reverse.dropWhile (· != 47)).reverse)

/-- The last name of a path; `.` when there is none, `/` for the root. -/
def lastName (p : Text) : Text :=
  match (names p).getLast? with
  | some n => n
  | none => if isAbsolute p then [47] else [46]

/-- The names on the way from one place to another, both given by their names from the root: a
step up for each name of the first that they do not share, and from there down. -/
def way : List Text → List Text → List Text
  | b :: base, t :: target =>
    if b = t then way base target else List.replicate (base.length + 1) up ++ t :: target
  | base, target => List.replicate base.length up ++ target

def between (base p : Text) : Text := ofNames false (way (names base) (names p))

def climbs (p : Text) : Bool := p == up || Text.startsWith p (up ++ [47])

/-- The path from a directory to a path at or below it; `none` when it lies elsewhere. -/
def inside? (cwd base p : Text) : Option Text :=
  let r := between (absolute cwd base) (absolute cwd p)
  if climbs r then none else some r

/-- The path from a directory; a path that does not lie below it is given from the root. -/
def relative (cwd base p : Text) : Text := (inside? cwd base p).getD (absolute cwd p)

inductive Mode where
  | given
  | auto
  | absolute
  | relative
  | basename
deriving DecidableEq, Repr

/-- The mode with the given name; any other name leaves paths as they are. -/
def Mode.ofName (t : Text) : Mode :=
  if t = bytes "absolute" then .absolute
  else if t = bytes "relative" then .relative
  else if t = bytes "basename" then .basename
  else if t = bytes "auto" then .auto
  else .given

/-- The spelling of a path in a report. Relative spelling is from `base`, or from the working
directory when that is empty; automatic spelling shortens long absolute paths. -/
def format (cwd : Text) (mode : Mode) (base p : Text) : Text :=
  match mode with
  | .given => clean p
  | .absolute => Path.absolute cwd p
  | .relative => Path.relative cwd (if base = [] then cwd else base) p
  | .basename => lastName p
  | .auto => if p.length < 40 || !isAbsolute p then clean p else lastName p

end LineReview.Path
