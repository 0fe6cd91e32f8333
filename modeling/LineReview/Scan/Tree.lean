import LineReview.Scan.Basic
import LineReview.Walk

/-!
# Scanning a tree

A scan of a tree takes its paths from a walk. The result is that of the scan, as
far as it has come; what went wrong on the walk is told beside it.
-/

namespace LineReview

structure TreeScan where
  scan : Scan
  /-- Messages about folders that could not be walked. -/
  troubles : List Text

namespace TreeScan

/-- Reviews every file that the walker finds, one after the other. -/
def run (o : ScanOptions) (shared : Scan.Shared) (p : Trace.Position) (w : Walker) : TreeScan :=
  let items := w.items shared.files
  { scan := .sequential o shared p ((WalkItem.files items).map .path)
    troubles := WalkItem.troubles items }

def result (t : TreeScan) : ScanResult := t.scan.result

end TreeScan

end LineReview
