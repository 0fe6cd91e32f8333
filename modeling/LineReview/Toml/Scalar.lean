import LineReview.Text.Utf8

/-!
# Scalars of TOML documents

Texts in four kinds of quotes, integers in four bases, floating-point numbers,
dates and times. Of numbers with a fraction and of dates only the form
matters here, since no setting has such a value.
-/

namespace LineReview.Toml

/-- What is before the closing quote and what follows it, on one line. A backslash protects the
byte behind it. -/
def basicBody? : Text → Option (Text × Text)
  | [] => none
  | 34 :: t => some ([], t)
  | 92 :: b :: t => (basicBody? t).map fun (s, r) => (92 :: b :: s, r)
  | b :: t =>
    if b = 10 || b = 13 then none else (basicBody? t).map fun (s, r) => (b :: s, r)

/-- The same between three quotes, over any number of lines. Up to two quotes may stand directly
before the closing ones. -/
def longBasicBody? : Text → Option (Text × Text)
  | 34 :: 34 :: 34 :: 34 :: 34 :: 34 :: _ => none
  | 34 :: 34 :: 34 :: 34 :: 34 :: t => some ([34, 34], t)
  | 34 :: 34 :: 34 :: 34 :: t => some ([34], t)
  | 34 :: 34 :: 34 :: t => some ([], t)
  | 92 :: b :: t => (longBasicBody? t).map fun (s, r) => (92 :: b :: s, r)
  | b :: t => (longBasicBody? t).map fun (s, r) => (b :: s, r)
  | [] => none

def literalBody? : Text → Option (Text × Text)
  | [] => none
  | 39 :: t => some ([], t)
  | b :: t =>
    if b = 10 || b = 13 then none else (literalBody? t).map fun (s, r) => (b :: s, r)

def longLiteralBody? : Text → Option (Text × Text)
  | 39 :: 39 :: 39 :: 39 :: 39 :: 39 :: _ => none
  | 39 :: 39 :: 39 :: 39 :: 39 :: t => some ([39, 39], t)
  | 39 :: 39 :: 39 :: 39 :: t => some ([39], t)
  | 39 :: 39 :: 39 :: t => some ([], t)
  | b :: t => (longLiteralBody? t).map fun (s, r) => (b :: s, r)
  | [] => none

def escapedCode? (digits : List UInt8) : Option Text := do
  let ds ← digits.mapM Text.hexValue?
  let c := ds.foldl (fun n d => 16 * n + d) 0
  if 0x10FFFF < c || (0xD800 ≤ c && c ≤ 0xDFFF) then none else some (Text.encodeCode c)

def escapedByte? (b : UInt8) : Option UInt8 :=
  match b with
  | 98 => some 8
  | 116 => some 9
  | 110 => some 10
  | 102 => some 12
  | 114 => some 13
  | 34 => some 34
  | 92 => some 92
  | _ => none

def unescape? : Text → Option Text
  | [] => some []
  | 92 :: 117 :: a :: b :: c :: d :: t => do
    let u ← escapedCode? [a, b, c, d]
    (unescape? t).map (u ++ ·)
  | 92 :: 85 :: a :: b :: c :: d :: e :: f :: g :: h :: t => do
    let u ← escapedCode? [a, b, c, d, e, f, g, h]
    (unescape? t).map (u ++ ·)
  | 92 :: b :: t => do
    let u ← escapedByte? b
    (unescape? t).map (u :: ·)
  | [92] => none
  | b :: t => (unescape? t).map (b :: ·)

/-- Where in an escaped line break a text is. -/
inductive Fold where
  | no
  /-- Behind a backslash, with only blanks since. -/
  | blanks
  /-- Behind the line break. -/
  | broken
deriving DecidableEq, Repr

/-- Takes out every backslash at the end of a line with all the white space that follows. A
backslash before other white space has no meaning. -/
def joinLines? : Fold → Text → Option Text
  | .blanks, [] => none
  | _, [] => some []
  | .blanks, b :: t =>
    if b = 10 then joinLines? .broken t
    else if b = 32 || b = 9 || b = 13 then joinLines? .blanks t else none
  | .broken, 92 :: b :: t =>
    if b = 32 || b = 9 || b = 13 then joinLines? .blanks t
    else if b = 10 then joinLines? .broken t
    else (joinLines? .no t).map fun s => 92 :: b :: s
  | .no, 92 :: b :: t =>
    if b = 32 || b = 9 || b = 13 then joinLines? .blanks t
    else if b = 10 then joinLines? .broken t
    else (joinLines? .no t).map fun s => 92 :: b :: s
  | .broken, b :: t =>
    if b = 10 || b = 32 || b = 9 || b = 13 then joinLines? .broken t
    else (joinLines? .no t).map (b :: ·)
  | .no, b :: t => (joinLines? .no t).map (b :: ·)

/-- A line break directly behind the opening quotes does not count. -/
def withoutFirstBreak : Text → Text
  | 10 :: t => t
  | 13 :: 10 :: t => t
  | t => t

def quoted? : Text → Option (Text × Text)
  | 34 :: 34 :: 34 :: t => do
    let (s, r) ← longBasicBody? t
    let s ← unescape? (← joinLines? .no (withoutFirstBreak s))
    pure (s, r)
  | 34 :: t => do
    let (s, r) ← basicBody? t
    pure (← unescape? s, r)
  | 39 :: 39 :: 39 :: t => (longLiteralBody? t).map fun (s, r) => (withoutFirstBreak s, r)
  | 39 :: t => literalBody? t
  | _ => none

/-! ## Numbers -/

/-- Underscores stand between digits, and a digit comes last. -/
def underscoresOk : Bool → Text → Bool
  | lastIsDigit, [] => lastIsDigit
  | lastIsDigit, b :: t =>
    (b != 95 || lastIsDigit) && underscoresOk (Text.hexValue? b).isSome t

def hasLeadingZero : Text → Bool
  | 48 :: _ :: _ => true
  | 43 :: 48 :: _ :: _ => true
  | 45 :: 48 :: _ :: _ => true
  | _ => false

def withoutUnderscores (t : Text) : Text := t.filter (· != 95)

def digitsValue (base : Nat) (t : Text) : Nat :=
  t.foldl (fun n b => base * n + (Text.hexValue? b).getD 0) 0

def int64? (n : Int) : Option Int64 :=
  if Int64.minValue.toInt ≤ n && n ≤ Int64.maxValue.toInt then some (Int64.ofInt n) else none

def decimalInteger? (t : Text) : Option Int64 :=
  if !underscoresOk false t || hasLeadingZero t then none
  else match withoutUnderscores t with
    | 45 :: d => int64? (-(digitsValue 10 d : Int))
    | 43 :: d => int64? (digitsValue 10 d)
    | d => int64? (digitsValue 10 d)

/-- The pieces between points and exponent marks, empty ones left out. -/
def floatPieces (t : Text) : List Text :=
  (Text.splitOn 46 (t.map fun b => if b = 101 || b = 69 then 46 else b)).filter (· ≠ [])

def pointsOk : Text → Bool
  | [] => true
  | [46] => false
  | 46 :: b :: t => Text.isDigit b && pointsOk (b :: t)
  | _ :: t => pointsOk t

def afterSign : Text → Text
  | 43 :: t => t
  | 45 :: t => t
  | t => t

/-- Is the number, written as digits, optional fraction and optional exponent, well-formed and not
too large? -/
def isFinite (t : Text) : Bool :=
  let t := afterSign t
  let whole := t.takeWhile Text.isDigit
  let t := t.dropWhile Text.isDigit
  let (fraction, t) := match t with
    | 46 :: u => (u.takeWhile Text.isDigit, u.dropWhile Text.isDigit)
    | u => ([], u)
  let exponent? : Option Int := match t with
    | [] => some 0
    | b :: u =>
      let d := afterSign u
      if (b = 101 || b = 69) && d ≠ [] && d.all Text.isDigit then
        some (if u.head? = some 45 then -(digitsValue 10 d : Int) else digitsValue 10 d)
      else none
  match exponent? with
  | none => false
  | some e =>
    let m := digitsValue 10 (whole ++ fraction)
    let e := e - fraction.length
    whole ≠ [] &&
      (m = 0 || e + (Text.decimal m).length < 309 ||
        (e + (Text.decimal m).length < 311 &&
          (if 0 ≤ e then m * Nat.pow 10 e.toNat < Nat.pow 2 1024 - Nat.pow 2 970
           else m < (Nat.pow 2 1024 - Nat.pow 2 970) * Nat.pow 10 e.natAbs)))

def isFloat (t : Text) : Bool :=
  let pieces := floatPieces t
  pieces.all (underscoresOk false) && !(pieces.head?.map hasLeadingZero).getD false && pointsOk t
    && isFinite (withoutUnderscores t)

/-! ## Dates and times -/

def daysIn (year month : Nat) : Nat :=
  if month = 2 then
    (if year % 4 = 0 && (year % 100 != 0 || year % 400 = 0) then 29 else 28)
  else if month = 4 || month = 6 || month = 9 || month = 11 then 30 else 31

/-- The value of exactly as many digits as asked for, and what follows them. -/
def digits? (n : Nat) (t : Text) : Option (Nat × Text) :=
  let d := t.take n
  if d.length = n && d.all Text.isDigit then some (digitsValue 10 d, t.drop n) else none

def expect? (b : UInt8) : Text → Option Text
  | [] => none
  | c :: t => if b = c then some t else none

def date? (t : Text) : Option Text := do
  let (y, t) ← digits? 4 t
  let (m, t) ← digits? 2 (← expect? 45 t)
  let (d, t) ← digits? 2 (← expect? 45 t)
  if 1 ≤ m && m ≤ 12 && 1 ≤ d && d ≤ daysIn y m then some t else none

def time? (t : Text) : Option Text := do
  let (h, t) ← digits? 2 t
  let (m, t) ← digits? 2 (← expect? 58 t)
  let (s, t) ← digits? 2 (← expect? 58 t)
  if 24 ≤ h || 60 ≤ m || 60 ≤ s then none
  else match t with
    | 46 :: b :: u => if Text.isDigit b then some (u.dropWhile Text.isDigit) else some t
    | _ => some t

def isOffset : Text → Bool
  | [90] => true
  | sign :: t =>
    (sign = 43 || sign = 45) && ((do
      let (h, t) ← digits? 2 t
      let (m, t) ← digits? 2 (← expect? 58 t)
      pure (t = [] && h ≤ 24 && m ≤ 60) : Option Bool)).getD false
  | [] => false

/-- Is the text a date, a time, or both with or without an offset? -/
def isDatetime (raw : Text) : Bool :=
  let t := raw.map fun b => if b = 122 then 90 else if b = 116 || b = 32 then 84 else b
  match date? t with
  | some [] => true
  | some (84 :: t) =>
    match time? t with
    | some r => r = [] || isOffset r
    | none => false
  | some _ => false
  | none => time? t = some []

end LineReview.Toml
