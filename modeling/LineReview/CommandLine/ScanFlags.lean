import LineReview.CommandLine.Arguments
import LineReview.Settings

/-!
# Flags of a scan

The flags that `check` and `watch` share. A flag that was given overrides the
setting of the project file; one that was not given changes nothing.
-/

namespace LineReview

/-- What the command line says about the settings of a scan. -/
structure ScanFlags where
  jobs : Option Int64 := none
  maxLineLength : Option Int64 := none
  measure : Option Text := none
  indent : Option Bool := none
  mixedIndent : Option Bool := none
  extensions : Option (List Text) := none
  maxDiagnostics : Option Int64 := none
deriving DecidableEq, Repr

inductive ScanFlagError where
  | lineLength
  | measure (t : Text)
deriving DecidableEq, Repr

def ScanFlagError.message : ScanFlagError → Text
  | lineLength => bytes "--max-line-length must be positive"
  | measure t => LayoutOptions.unknownMeasure t

namespace ScanFlags

def table : List Flag :=
  [{ name := "jobs", initial := .number 0, meaning := "max parallel workers (0=auto)" },
   { name := "cache", initial := .switch false,
     meaning := "reuse results of unchanged files from the on-disk cache" },
   { name := "cache-dir", initial := .word [],
     meaning := "cache directory (default: $XDG_CACHE_HOME/codereview)" },
   { name := "max-line-length", initial := .number 120, meaning := "maximum line length" },
   { name := "measure", initial := .word (bytes "runes"),
     meaning := "line length measure (runes|cells)" },
   { name := "indent", initial := .switch false,
     meaning := "require indentation in multiples of the indent width" },
   { name := "mixed-indent", initial := .switch false,
     meaning := "forbid mixing tabs and spaces in indentation" },
   { name := "ext", initial := .words [],
     meaning := "file extensions to review (default .cpp,.h,.hpp,.inl)" },
   { name := "max-diagnostics", initial := .number 0,
     meaning := "maximum diagnostics kept per file (0=all)" }]

def ofArguments (a : Arguments) : ScanFlags :=
  let number? (name : String) : Option Int64 := match a.given? name with
    | some (.number n) => some n
    | _ => none
  let switch? (name : String) : Option Bool := match a.given? name with
    | some (.switch b) => some b
    | _ => none
  { jobs := number? "jobs"
    maxLineLength := number? "max-line-length"
    measure := match a.given? "measure" with
      | some (.word t) => some t
      | _ => none
    indent := switch? "indent"
    mixedIndent := switch? "mixed-indent"
    extensions := match a.given? "ext" with
      | some (.words ts) => some ts
      | _ => none
    maxDiagnostics := number? "max-diagnostics" }

def apply (f : ScanFlags) (s : Settings) : Except ScanFlagError Settings := do
  if (f.maxLineLength.getD 1) ≤ 0 then throw .lineLength
  let measure ← match f.measure with
    | none => pure s.review.layout.measure
    | some t => match LayoutOptions.measure? t with
      | some m => pure m
      | none => throw (.measure t)
  let layout := s.review.layout
  pure
    { review :=
        { s.review with
          layout :=
            { layout with
              maxLineLength := f.maxLineLength.getD layout.maxLineLength
              measure
              indent := f.indent.getD layout.indent
              mixedIndent := f.mixedIndent.getD layout.mixedIndent }
          maxDiagnostics := f.maxDiagnostics.getD s.review.maxDiagnostics }
      walk := { s.walk with extensions := f.extensions.getD s.walk.extensions }
      jobs := f.jobs.getD s.jobs }

end ScanFlags

end LineReview
