import LineReview.Review.Options
import LineReview.Source.Reading

/-!
# Reviewing lines

Every line is looked at on its own. Its naming findings come first, in the
order of its sites, and then its layout findings; a bag collects them up to
the limit. A classifier may also give up on a line, and then the review has no
result.

`source` goes through the list of the lines; `outcome?` is the review of a file of
any length, as far as lines can be numbered.
-/

namespace LineReview

/-- Turns a line into sites, or gives up with a reason. -/
abbrev LineClassifier := Text → Except Text (List Site)

/-- The classifier that the options describe; it never gives up. -/
def ReviewOptions.lexical (o : ReviewOptions) : LineClassifier :=
  fun line => .ok (Classifier.classify o.classifier line)

namespace Review

def findings (widths : Text.Widths) (o : ReviewOptions) (n : UInt32) (line : Text)
    (sites : List Site) : List Diagnostic :=
  Site.checkAll o.namingSeverity n sites ++ Layout.check widths o.layout line n

def addLines (widths : Text.Widths) (o : ReviewOptions) (classify : LineClassifier) (b : Bag) :
    List (UInt32 × Text) → Except Text Bag
  | [] => .ok b
  | (n, line) :: rest =>
    match classify line with
    | .error e => .error e
    | .ok sites => addLines widths o classify (b.addAll (findings widths o n line sites)) rest

def lines (widths : Text.Widths) (o : ReviewOptions) (ls : List (UInt32 × Text)) :
    List Diagnostic :=
  (ls.foldl (fun b l => b.addAll (findings widths o l.1 l.2 (Classifier.classify o.classifier l.2)))
    (Bag.empty o.maxDiagnostics)).items

def source (widths : Text.Widths) (o : ReviewOptions) (f : SourceFile) : List Diagnostic :=
  lines widths o f.lines

def sourceWith (widths : Text.Widths) (o : ReviewOptions) (classify : LineClassifier)
    (f : SourceFile) : Except Text (List Diagnostic) :=
  (addLines widths o classify (Bag.empty o.maxDiagnostics) f.lines).map (·.items)

/-! ## Line by line

Lines are numbered with 32-bit numbers, and a line is looked up by its number. In a file of 2³² - 1
bytes or more the numbers may run over: then there are too many lines to count, or the place of a
line is out of range, or there is always one number more. -/

/-- The review breaks off because lines cannot be counted. -/
def uncountable : Text := bytes "line index length overflow: out of range"

/-- The review breaks off because a line is out of range. -/
def outOfRange (f : SourceFile) (n : UInt32) : Text :=
  bytes "runtime error: slice bounds out of range [" ++
    Text.decimal ((f.lineStart? n).getD 0).toNat ++ [58] ++
    Text.decimal (f.lineStop n).toNat ++ [93]

/-- Adds the findings about the lines from a number on to a bag, in at most `rounds` rounds; `none`
when that is too few. -/
def addFrom (widths : Text.Widths) (o : ReviewOptions) (classify : LineClassifier)
    (f : SourceFile) (count : UInt32) : (rounds : Nat) → UInt32 → Bag → Option (Except Text Bag)
  | 0, _, _ => none
  | rounds + 1, n, b =>
    if n ≤ count then
      match f.readLine? n with
      | none => some (.error (outOfRange f n))
      | some line =>
        match classify line with
        | .error e => some (.error e)
        | .ok sites =>
          addFrom widths o classify f count rounds (n + 1)
            (b.addAll (findings widths o n line sites))
    else some (.ok b)

def byNumber (widths : Text.Widths) (o : ReviewOptions) (classify : LineClassifier)
    (f : SourceFile) (rounds : Nat) : Option (Except Text (List Diagnostic)) :=
  match f.count? with
  | none => some (.error uncountable)
  | some count =>
    (addFrom widths o classify f count rounds 1 (Bag.empty o.maxDiagnostics)).map
      (·.map (·.items))

/-- The diagnostics of a source file, or the reason why its review broke off; `none` when the review
never ends. Numbers are all used up after 2³² rounds, so if it ends at all it ends within them. -/
def outcome? (widths : Text.Widths) (o : ReviewOptions) (classify : LineClassifier)
    (f : SourceFile) : Option (Except Text (List Diagnostic)) :=
  if f.content.length < UInt32.size - 1 then some (sourceWith widths o classify f)
  else byNumber widths o classify f UInt32.size

end Review

end LineReview
