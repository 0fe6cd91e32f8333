import LineReview.Text.Case
import LineReview.Text.Quoted
import LineReview.Text.Space

/-!
# Severity of a finding

A severity is a byte. Three values have a meaning; the others can only come
from outside and are carried along unchanged.
-/

namespace LineReview

structure Severity where
  level : UInt8
deriving DecidableEq, Repr

namespace Severity

def info : Severity := ⟨0⟩
def warning : Severity := ⟨1⟩
def error : Severity := ⟨2⟩

def name (s : Severity) : String :=
  match s.level with
  | 0 => "INFO"
  | 1 => "WARNING"
  | 2 => "ERROR"
  | _ => "UNKNOWN"

/-- The word that a one-line report starts with; unknown severities count as information. -/
def label (s : Severity) : String :=
  match s.level with
  | 2 => "error"
  | 1 => "warning"
  | _ => "info"

/-- Reads the name of a severity in any case, with white space around it. -/
def parse? (t : Text) : Option Severity :=
  let w := Text.lowerWord (Text.trim t)
  if w = bytes "info" then some info
  else if w = bytes "warning" || w = bytes "warn" then some warning
  else if w = bytes "error" then some error
  else none

def unknownMessage (t : Text) : Text :=
  bytes "invalid severity " ++ Text.quoted t ++ bytes " (expected info|warning|error)"

end Severity

end LineReview
