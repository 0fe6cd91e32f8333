import LineReview.Classifier.Lexical
import LineReview.Layout
import LineReview.Naming.Rule

/-!
# What a review looks for

The options of a review select the rules. Their fingerprint names the whole
selection in one text, so that a result can be kept and used again exactly for
the rules that it was found by.
-/

namespace LineReview

/-- The version that a build carries when nothing else was set. -/
def standardVersion : Text := bytes "0.1.0-dev"

structure ReviewOptions where
  classifier : ClassifierOptions := {}
  layout : LayoutOptions := {}
  namingSeverity : Severity := .error
  /-- Diagnostics kept per file; all of them when it is not positive. -/
  maxDiagnostics : Int64 := 0
deriving DecidableEq, Repr

namespace ReviewOptions

def commas (ts : List Text) : Text := Text.joinWith [44] ts

/-- The options in one text, for the given build version. -/
def fingerprint (version : Text) (o : ReviewOptions) : Text :=
  let f := o.layout
  bytes "v=" ++ version
    ++ bytes ";cls="
    ++ commas [.ofBool o.classifier.skipComments, .ofBool o.classifier.skipUsingDirectives,
        .ofBool o.classifier.enumerators]
    ++ bytes ";fmt="
    ++ commas [.decimalInt f.maxLineLength.toInt, f.measure, .ofBool f.indent,
        .ofBool f.mixedIndent, .decimalInt f.indentWidth.toInt, .decimalInt f.tabWidth.toInt,
        .decimal f.severity.level.toNat]
    ++ bytes ";nam=" ++ Text.decimal o.namingSeverity.level.toNat
    ++ bytes ";max=" ++ Text.decimalInt o.maxDiagnostics.toInt

end ReviewOptions

end LineReview
