import LineReview.Progress.Event
import LineReview.Text.Case
import LineReview.Text.Cells
import LineReview.Text.Quoted
import LineReview.Text.Space
import LineReview.Timer

/-!
# The progress view

The view counts files and diagnostics as events come in and shows the latest
files, a spinner and a bar. It can be asked to stop once, and it ends when
there are no more events.
-/

namespace LineReview.Progress

inductive Mode where
  | auto
  | on
  | off
deriving DecidableEq, Repr

namespace Mode

def name : Mode → String
  | auto => "auto"
  | on => "on"
  | off => "off"

/-- Reads the name of a mode in any case, with white space around it; the empty name means auto. -/
def parse? (t : Text) : Option Mode :=
  let w := Text.trim (Text.lowerWord t)
  if w = [] then some auto else [auto, on, off].find? fun m => bytes m.name = w

def unknownMessage (t : Text) : Text :=
  bytes "invalid --ui value " ++ Text.quoted t ++ bytes " (expected auto|on|off)"

end Mode

structure Item where
  path : Text
  status : Status
  diagnostics : Int64 := 0
deriving DecidableEq, Repr

structure View where
  title : Text
  items : List Item := []
  finished : Nat := 0
  failed : Nat := 0
  cached : Nat := 0
  diagnostics : Int64 := 0
  /-- Width of the terminal, and of the bar. -/
  width : Int := 80
  barWidth : Int := 76
  widths : Text.Widths := .western
  /-- Frame of the spinner. -/
  frame : Nat := 0
  isStopping : Bool := false
  isDone : Bool := false
deriving DecidableEq, Repr

inductive Message where
  | event (e : Event)
  /-- There are no more events. -/
  | ended
  | tick
  | resize (width : Int)
  | interrupt
  | other
deriving DecidableEq, Repr

namespace View

def maxRows : Nat := 12

def updateItem (path : Text) (status : Status) (diagnostics : Option Int64) :
    List Item → List Item
  | [] => [{ path, status, diagnostics := diagnostics.getD 0 }]
  | i :: is =>
    if i.path = path then { i with status, diagnostics := diagnostics.getD i.diagnostics } :: is
    else i :: updateItem path status diagnostics is

def apply (v : View) (e : Event) : View :=
  if e.file = [] then v
  else
    let counted := e.status = .done || e.status = .cached
    { v with
      items := updateItem e.file e.status (if counted then some e.diagnostics else none) v.items
      finished := if e.status.isFinal then v.finished + 1 else v.finished
      cached := if e.status = .cached then v.cached + 1 else v.cached
      failed := if e.status = .error then v.failed + 1 else v.failed
      diagnostics := if counted then v.diagnostics + e.diagnostics else v.diagnostics }

def update (v : View) : Message → View
  | .event e => v.apply e
  | .ended => { v with isDone := true }
  | .tick => if v.isDone then v else { v with frame := v.frame + 1 }
  | .resize w => if 0 < w then { v with width := w, barWidth := w - 4 } else v
  | .interrupt => { v with isStopping := true }
  | .other => v

/-- Does the message ask the review to stop for the first time? -/
def cancels (v : View) (m : Message) : Bool := m = .interrupt && !v.isStopping

def frames : List String := ["⣾ ", "⣽ ", "⣻ ", "⢿ ", "⡿ ", "⣟ ", "⣯ ", "⣷ "]

def spinner (v : View) : Text := bytes (frames.getD (v.frame % frames.length) "")

/-- A block of lines, all padded to the widest of them. A tab stands for four spaces. Padding does
not ask what the terminal does with code points of ambiguous width. -/
def block (t : Text) : Text :=
  let ls := Text.splitOn 10 (Text.replaceByte 9 (bytes "    ") t)
  let w := (ls.map (Text.cells .western)).foldl max 0
  Text.joinWith [10] (ls.map fun l => l ++ List.replicate (w - Text.cells .western l) 32)

def header (v : View) : Text :=
  block (if v.isDone then bytes "done: " ++ v.title
    else if v.isStopping then v.spinner ++ bytes " stopping: " ++ v.title
    else v.spinner ++ bytes " " ++ v.title)

def counters (v : View) : Text :=
  bytes "  " ++ Text.decimal v.finished ++ bytes "/" ++ Text.decimal v.items.length
    ++ bytes " files, " ++ Text.decimalInt v.diagnostics.toInt ++ bytes " diagnostics"
    ++ (if v.cached = 0 then [] else bytes ", " ++ Text.decimal v.cached ++ bytes " cached")
    ++ (if v.failed = 0 then [] else bytes ", " ++ Text.decimal v.failed ++ bytes " failed")

def row (widths : Text.Widths) (nameWidth : Nat) (i : Item) : Text :=
  let status := i.status.name
  bytes "  " ++ block (List.replicate (12 - (Text.runes status).length) 32 ++ status) ++ [32]
    ++ Text.truncated widths nameWidth (bytes "...") i.path
    ++ (if 0 < i.diagnostics then bytes " (" ++ Text.decimalInt i.diagnostics.toInt ++ bytes ")" else [])

/-- The bar, empty until the end. -/
def bar (v : View) : Text :=
  let n := (v.barWidth - 5).toNat
  if v.isDone then Text.repeated n (bytes "█") ++ bytes " 100%"
  else Text.repeated n (bytes "░") ++ bytes "   0%"

def render (v : View) : Text :=
  let nameWidth := (max (v.width - 24) 20).toNat
  v.header ++ [10] ++ v.counters ++ [10, 10]
    ++ (v.items.drop (v.items.length - maxRows)).flatMap (fun i => row v.widths nameWidth i ++ [10])
    ++ [10] ++ v.bar ++ [10]

end View

end LineReview.Progress
