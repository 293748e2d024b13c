import MethodLines.Toml.Table

/-! TOML scalars that are written without quotes: booleans, numbers, dates and
times. Each is one run of characters, except that a blank may stand between a
date and a time. An integer is only read for its form. Whether it also is a
number shows when it is used. -/
namespace MethodLines.Toml

def isDigitIn (base : Nat) (c : Char) : Bool :=
  match Text.hexDigit? c with
  | some d => d < base
  | none => false

/-- Whether every underscore stands between two digits. -/
def isGrouped (isDigit : Char → Bool) : Text → Bool
  | [] => true
  | '_' :: _ => false
  | a :: '_' :: b :: t => isDigit a && isDigit b && isGrouped isDigit (b :: t)
  | _ :: t => isGrouped isDigit t

def ungroup (t : Text) : Text := t.filter (· ≠ '_')

/-- Takes a sign off, if there is one; whether it is a minus. -/
def unsigned : Text → Bool × Text
  | '-' :: t => (true, t)
  | '+' :: t => (false, t)
  | t => (false, t)

def valueIn (base : Nat) (digits : Text) : Nat :=
  digits.foldl (fun n c => n * base + (Text.hexDigit? c).getD 0) 0

/-- What is left without underscores, unless that is nothing. -/
def digits? (t : Text) : Option Text :=
  match ungroup t with
  | [] => none
  | digits => some digits

/-- The same for what must not start with a zero, unless it is the only digit. -/
def wholeDigits? (t : Text) : Option Text :=
  match t, ungroup t with
  | '0' :: _, _ :: _ :: _ => none
  | t, _ => digits? t

/-- An integer in another base than ten. The digits may be missing, but then it is
no number. -/
def integerIn? (base : Nat) (t : Text) : Option Value :=
  if (ungroup t).all (isDigitIn base) && isGrouped (isDigitIn base) t then
    some (.integer ((digits? t).map fun digits => valueIn base digits))
  else none

/-- An integer in decimal. Behind its first underscore other characters may stand
too, though next to an underscore only hexadecimal digits; then it is no number. -/
def decimalInteger? (t : Text) : Option Value :=
  let (negative, body) := unsigned t
  let hasForm :=
    match body.dropWhile Char.isDigit with
    | [] => true
    | '_' :: rest =>
      isGrouped (isDigitIn 16) body && !rest.any fun c => c = '.' || c = 'e' || c = 'E'
    | _ => false
  if hasForm then
    (wholeDigits? body).map fun digits =>
      let n : Int := valueIn 10 digits
      .integer (if digits.all Char.isDigit then some (if negative then -n else n) else none)
  else none

def integer? : Text → Option Value
  | '0' :: 'x' :: t => integerIn? 16 t
  | '0' :: 'o' :: t => integerIn? 8 t
  | '0' :: 'b' :: t => integerIn? 2 t
  | t => decimalInteger? t

/-- Whether a decimal fraction is below the numbers that round to infinity in
floating point. An exponent that decides it alone is not computed with. -/
def representable (digits : Text) (exponent : Int) : Bool :=
  let significand := valueIn 10 digits
  let magnitude := (Text.decimal significand).length + exponent
  if significand = 0 ∨ magnitude < 300 then true
  else if 310 < magnitude then false
  else
    let limit := Nat.pow 2 1024 - Nat.pow 2 970
    if 0 ≤ exponent then significand * Nat.pow 10 exponent.natAbs < limit
    else significand < limit * Nat.pow 10 exponent.natAbs

def isRunChar (c : Char) : Bool := c.isDigit || c = '_'

/-- The exponent that a number ends in; none is zero. -/
def exponent? : Text → Option Int
  | [] => some 0
  | 'e' :: t | 'E' :: t =>
    let (negative, t) := unsigned t
    if t.all isRunChar then
      (digits? t).map fun digits =>
        let n : Int := valueIn 10 digits
        if negative then -n else n
    else none
  | _ => none

/-- A number with a fraction or an exponent, or one that is infinite or none. -/
def float? (t : Text) : Option Value :=
  let (_, body) := unsigned t
  if body = ("inf" : Text) ∨ body = ("nan" : Text) then some (.float true)
  else if isGrouped Char.isDigit body then do
    let whole ← wholeDigits? (body.takeWhile isRunChar)
    match body.dropWhile isRunChar with
    | [] => none
    | '.' :: rest => do
      let fraction ← digits? (rest.takeWhile isRunChar)
      let exponent ← exponent? (rest.dropWhile isRunChar)
      return .float (representable (whole ++ fraction) (exponent - fraction.length))
    | rest => do
      let exponent ← exponent? rest
      return .float (representable whole exponent)
  else none

/-- A number of exactly so many digits, and the text behind it. -/
def number? (count : Nat) (t : Text) : Option (Nat × Text) :=
  if (t.take count).length = count ∧ (t.take count).all Char.isDigit then
    some (valueIn 10 (t.take count), t.drop count)
  else none

def daysIn (year month : Nat) : Nat :=
  if month = 2 then
    if year % 4 = 0 ∧ (year % 100 ≠ 0 ∨ year % 400 = 0) then 29 else 28
  else if month = 4 ∨ month = 6 ∨ month = 9 ∨ month = 11 then 30
  else 31

def date? (t : Text) : Option Text := do
  let (year, t) ← number? 4 t
  let '-' :: t := t | none
  let (month, t) ← number? 2 t
  let '-' :: t := t | none
  let (day, t) ← number? 2 t
  if 1 ≤ month ∧ month ≤ 12 ∧ 1 ≤ day ∧ day ≤ daysIn year month then return t else none

def clock? (t : Text) : Option Text := do
  let (hour, t) ← number? 2 t
  let ':' :: t := t | none
  let (minute, t) ← number? 2 t
  if hour ≤ 23 ∧ minute ≤ 59 then return t else none

/-- Takes a time of day off. Seconds may be left out; a leap second is a second. -/
def time? (t : Text) : Option Text := do
  let t ← clock? t
  match t with
  | ':' :: t => do
    let (second, t) ← number? 2 t
    if 60 < second then none
    else
      match t with
      | '.' :: t =>
        if (t.takeWhile Char.isDigit).isEmpty then none else return t.dropWhile Char.isDigit
      | t => return t
  | t => return t

/-- Whether a text is a distance from universal time, or nothing. -/
def isOffset : Text → Bool
  | [] | ['Z'] | ['z'] => true
  | '+' :: t | '-' :: t => clock? t = some []
  | _ => false

def isDatetime (t : Text) : Bool :=
  match date? t with
  | some [] => true
  | some ('T' :: t) | some ('t' :: t) | some (' ' :: t) =>
    match time? t with
    | some rest => isOffset rest
    | none => false
  | some _ => false
  | none => time? t = some []

/-- Whether a character goes on with a run: all do but those that structure a
document. -/
def isScalarChar : Char → Bool
  | '=' | ',' | '[' | ']' | '\x7b' | '\x7d' | ' ' | '\t' | '#' | '\r' | '\n' => false
  | _ => true

/-- What one run of characters stands for. -/
def scalar? (t : Text) : Option Value :=
  if t = ("true" : Text) then some (.boolean true)
  else if t = ("false" : Text) then some (.boolean false)
  else
    (integer? t).or ((float? t).or (if isDatetime t then some .datetime else none))

/-- Reads a scalar. A date takes along a time that follows it after one blank. -/
def readScalar (t : Text) : Option (Value × Text) :=
  let run := t.takeWhile isScalarChar
  let rest := t.dropWhile isScalarChar
  match date? run, rest with
  | some [], ' ' :: c :: after =>
    if c.isDigit then
      let time := (c :: after).takeWhile isScalarChar
      if isDatetime (run ++ ' ' :: time) then
        some (.datetime, (c :: after).dropWhile isScalarChar)
      else none
    else (scalar? run).map (·, rest)
  | _, _ => (scalar? run).map (·, rest)

end MethodLines.Toml
