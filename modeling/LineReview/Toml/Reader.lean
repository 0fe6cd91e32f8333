import LineReview.Toml.Scalar

/-!
# Reading TOML documents

A document is a list of statements: headings of tables and assignments. Only
the written form is checked here; whether the statements fit together is another
matter.
-/

namespace LineReview.Toml

abbrev Key := List Text

mutual

inductive Term where
  | string (t : Text)
  | integer (n : Int64)
  | float
  | bool (b : Bool)
  | datetime
  | array (items : Terms)
  | table (pairs : Pairs)

inductive Terms where
  | nil
  | cons (head : Term) (tail : Terms)

inductive Pairs where
  | nil
  | cons (key : Key) (value : Term) (rest : Pairs)

end

inductive Statement where
  /-- The heading of a table. -/
  | table (key : Key)
  /-- The heading of one more table in a list of tables. -/
  | element (key : Key)
  | assign (key : Key) (value : Term)

/-! ## Between the words -/

def isBlank (b : UInt8) : Bool := b == 32 || b == 9
def isBreak (b : UInt8) : Bool := b == 10 || b == 13

def skipBlanks (t : Text) : Text := t.dropWhile isBlank

/-- White space, line breaks and comments. -/
def skipSpace : Bool → Text → Text
  | _, [] => []
  | true, b :: t => if isBreak b then skipSpace false t else skipSpace true t
  | false, b :: t =>
    if isBlank b || isBreak b then skipSpace false t
    else if b = 35 then skipSpace true t
    else b :: t

/-- The end of a statement: nothing more than a comment on its line. -/
def endOfLine? (t : Text) : Option Text :=
  match skipBlanks t with
  | [] => some []
  | b :: r => if isBreak b then some r else if b = 35 then some (r.dropWhile (!isBreak ·)) else none

/-! ## Keys -/

def isBare (b : UInt8) : Bool := Text.isLetter b || Text.isDigit b || b == 95 || b == 45

def keyPart? (t : Text) : Option (Text × Text) :=
  match t with
  | 34 :: r => do
    let (s, r) ← basicBody? r
    pure (← unescape? s, r)
  | 39 :: r => literalBody? r
  | _ =>
    let name := t.takeWhile isBare
    if name = [] then none else some (name, t.dropWhile isBare)

/-- A key with its parts between dots, and what follows it. The first argument bounds the number of
parts. -/
def key? : Nat → Text → Option (Key × Text)
  | 0, _ => none
  | fuel + 1, t => do
    let (part, r) ← keyPart? (skipBlanks t)
    match skipBlanks r with
    | 46 :: r =>
      let (rest, r) ← key? fuel r
      pure (part :: rest, r)
    | r => pure ([part], r)

/-! ## Values -/

def isDecimalByte (b : UInt8) : Bool := Text.isDigit b || b == 95
def isFloatByte (b : UInt8) : Bool :=
  isDecimalByte b || b == 46 || b == 45 || b == 43 || b == 101 || b == 69
def isDatetimeByte (b : UInt8) : Bool :=
  Text.isDigit b || b == 45 || b == 58 || b == 84 || b == 116 || b == 32 || b == 46 || b == 90
    || b == 122 || b == 43

/-- An integer behind the mark of a base: `x`, `o` or `b`. -/
def based? (base : Nat) (t : Text) : Option (Term × Text) :=
  let isOfBase (b : UInt8) : Bool := ((Text.hexValue? b).map fun d => decide (d < base)).getD false
  let d := t.takeWhile fun b => isOfBase b || b == 95
  if (d.head?.map isOfBase).getD false && underscoresOk false d then
    (int64? (digitsValue base (withoutUnderscores d))).map fun n => (.integer n, t.drop d.length)
  else none

/-- A decimal number with the given sign in front, and what follows it. -/
def number? (sign t : Text) : Option (Term × Text) :=
  let d := t.takeWhile isDecimalByte
  match t.dropWhile isDecimalByte with
  | b :: _ =>
    if b = 46 || b = 101 || b = 69 then
      let f := t.takeWhile isFloatByte
      if isFloat (sign ++ f) then some (.float, t.dropWhile isFloatByte) else none
    else (decimalInteger? (sign ++ d)).map fun n => (.integer n, t.dropWhile isDecimalByte)
  | [] => (decimalInteger? (sign ++ d)).map fun n => (.integer n, [])

/-- Anything that begins with a digit. -/
def numberOrDate? (t : Text) : Option (Term × Text) :=
  match t with
  | 48 :: 120 :: r => based? 16 r
  | 48 :: 111 :: r => based? 8 r
  | 48 :: 98 :: r => based? 2 r
  | _ =>
    match t.dropWhile Text.isDigit with
    | b :: _ =>
      if b = 45 || b = 58 then
        if isDatetime (Text.dropTrailing isBlank (t.takeWhile isDatetimeByte)) then
          some (.datetime, t.dropWhile isDatetimeByte)
        else none
      else number? [] t
    | [] => number? [] t

def scalar? (t : Text) : Option (Term × Text) :=
  match t with
  | [] => none
  | b :: r =>
    if b = 34 || b = 39 then (quoted? t).map fun (s, r) => (.string s, r)
    else if Text.isDigit b then numberOrDate? t
    else if b = 43 || b = 45 then
      match r with
      | 105 :: 110 :: 102 :: r => some (.float, r)
      | 110 :: 97 :: 110 :: r => some (.float, r)
      | 48 :: c :: _ => if c = 98 || c = 111 || c = 120 then none else number? [b] r
      | c :: _ => if Text.isDigit c then number? [b] r else none
      | [] => none
    else match Text.strip? t (bytes "inf"), Text.strip? t (bytes "nan"),
        Text.strip? t (bytes "true"), Text.strip? t (bytes "false") with
      | some r, _, _, _ => some (.float, r)
      | _, some r, _, _ => some (.float, r)
      | _, _, some r, _ => some (.bool true, r)
      | _, _, _, some r => some (.bool false, r)
      | _, _, _, _ => none

mutual

/-- A value, and what follows it. The first argument bounds the steps. -/
def term? : Nat → Text → Option (Term × Text)
  | 0, _ => none
  | fuel + 1, t =>
    match skipBlanks t with
    | 91 :: r => (items? fuel r).map fun (l, r) => (.array l, r)
    | 123 :: r => (pairs? fuel true r).map fun (l, r) => (.table l, r)
    | r => scalar? r

def items? : Nat → Text → Option (Terms × Text)
  | 0, _ => none
  | fuel + 1, t =>
    match skipSpace false t with
    | 93 :: r => some (.nil, r)
    | r =>
      match term? fuel r with
      | none => none
      | some (x, r) =>
        match skipSpace false r with
        | 44 :: r => (items? fuel r).map fun (l, r) => (.cons x l, r)
        | 93 :: r => some (.cons x .nil, r)
        | _ => none

/-- The assignments of an inline table up to its closing brace, and what follows it. Only an empty
table may close where an assignment is expected. -/
def pairs? : Nat → Bool → Text → Option (Pairs × Text)
  | 0, _, _ => none
  | fuel + 1, mayClose, t =>
    match skipBlanks t with
    | 125 :: r => if mayClose then some (.nil, r) else none
    | r =>
      match key? r.length r with
      | some (k, 61 :: r) =>
        match term? fuel r with
        | none => none
        | some (x, r) =>
          match skipBlanks r with
          | 44 :: r => (pairs? fuel false r).map fun (l, r) => (.cons k x l, r)
          | 125 :: r => some (.cons k x .nil, r)
          | _ => none
      | _ => none

end

/-! ## Statements -/

def statement? (t : Text) : Option (Statement × Text) :=
  match t with
  | 91 :: 91 :: r =>
    match key? r.length r with
    | some (k, 93 :: 93 :: r) => some (.element k, r)
    | _ => none
  | 91 :: r =>
    match key? r.length r with
    | some (k, 93 :: r) => some (.table k, r)
    | _ => none
  | _ =>
    match key? t.length t with
    | some (k, 61 :: r) => (term? (2 * r.length + 2) r).map fun (x, r) => (.assign k x, r)
    | _ => none

/-- All statements. The first argument bounds their number. -/
def statements? : Nat → Text → Option (List Statement)
  | 0, _ => none
  | fuel + 1, t =>
    match skipSpace false t with
    | [] => some []
    | r => do
      let (s, r) ← statement? r
      let rest ← statements? fuel (← endOfLine? r)
      pure (s :: rest)

/-- No control characters except tabs and line breaks; a carriage return comes before a line feed. -/
def isPlain : Text → Bool
  | [] => true
  | 13 :: 10 :: t => isPlain t
  | b :: t => (b == 9 || b == 10 || (32 ≤ b && b != 127)) && isPlain t

def withoutMark : Text → Text
  | 0xEF :: 0xBB :: 0xBF :: t => t
  | 0xFF :: 0xFE :: t => t
  | 0xFE :: 0xFF :: t => t
  | t => t

def read? (content : Text) : Option (List Statement) :=
  let t := withoutMark content
  if Text.isUtf8 t && isPlain t then statements? (t.length + 1) t else none

end LineReview.Toml
