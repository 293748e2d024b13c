import MethodLines.Json.StringReading

/-! Reading a text as JSON. Reading stops at the first fault; what was read
before it is in the draft. -/
namespace MethodLines.Json

/-- The white space that may stand between the parts of a JSON text. -/
def isSpace (c : Char) : Bool := c = ' ' || c = '\t' || c = '\n' || c = '\r'

def skipSpace (t : Text) : Text := t.dropWhile isSpace

namespace Draft

/-- What came of reading: a draft, and the text behind it unless reading stops. -/
abbrev Read := Draft × Option Text

/-- The same fault for one who reads and one who passes over. -/
def fault (f : Fault) : Read := (.broken f f, none)

/-- Reads the rest of a word whose first letter is known. -/
def readWord (value : Draft) : Text → Text → Read
  | [], t => (value, some t)
  | _ :: _, [] => fault .truncated
  | c :: word, d :: t => if c = d then readWord value word t else fault .malformed

def readDigits (t : Text) : Text × Text := (t.takeWhile Char.isDigit, t.dropWhile Char.isDigit)

def digitsValue (digits : Text) : Nat := Nat.ofDigitChars 10 digits 0

def digitOf (c : Char) : Fin 10 := Fin.ofNat 10 (c.toNat - '0'.toNat)

/-- A number that lacks a digit. One who reads it tells the end of the text from
a wrong character, one who passes over it does not. -/
def digitMissing (t : Text) : Read :=
  (.broken (if t.isEmpty then .truncated else .malformed) .malformed, none)

def readExponent (negative : Bool) (whole : Nat) (fraction : List (Fin 10)) (t : Text) : Read :=
  let digitsOf (sign : Nat → Int) (t : Text) : Read :=
    match readDigits t with
    | ([], rest) => digitMissing rest
    | (digits, rest) =>
      (.number ⟨negative, whole, fraction, some (sign (digitsValue digits))⟩, some rest)
  match t with
  | 'e' :: t | 'E' :: t =>
    match t with
    | '-' :: t => digitsOf (fun n => -(n : Int)) t
    | '+' :: t => digitsOf (fun n => n) t
    | t => digitsOf (fun n => n) t
  | t => (.number ⟨negative, whole, fraction, none⟩, some t)

/-- Reads the fraction and exponent of a number, so far as there are any. -/
def readFraction (negative : Bool) (whole : Nat) (t : Text) : Read :=
  match t with
  | '.' :: t =>
    match readDigits t with
    | ([], rest) => digitMissing rest
    | (digits, rest) => readExponent negative whole (digits.map digitOf) rest
  | t => readExponent negative whole [] t

/-- Reads a number behind its sign. Digits before the point start with a zero
only if they are nothing else. -/
def readNumber (negative : Bool) (t : Text) : Read :=
  match readDigits t with
  | ([], rest) => digitMissing rest
  | ('0' :: _ :: _, _) => fault .malformed
  | (digits, rest) => readFraction negative (digitsValue digits) rest

mutual

def read : Nat → Text → Read
  | 0, _ => fault .malformed
  | fuel + 1, t =>
    match skipSpace t with
    | [] => fault .truncated
    | 'n' :: t => readWord .null "ull" t
    | 't' :: t => readWord (.bool true) "rue" t
    | 'f' :: t => readWord (.bool false) "alse" t
    | '-' :: t => readNumber true t
    | '"' :: t => (StringScan.ofText t).draft
    | '[' :: t =>
      match readItems fuel true t with
      | (items, stop, rest) => (.array items stop, rest)
    | '\x7b' :: t =>
      match readMembers fuel true t with
      | (members, stop, rest) => (.object members stop, rest)
    | c :: t => if c.isDigit then readNumber false (c :: t) else fault .malformed

/-- Reads the items of an array up to its bracket. No comma stands before the
first one. -/
def readItems : Nat → Bool → Text → List Draft × Option Fault × Option Text
  | 0, _, _ => ([], some .malformed, none)
  | fuel + 1, first, t =>
    match skipSpace t with
    | [] => ([], some .truncated, none)
    | ']' :: t => ([], none, some t)
    | c :: t =>
      if first then readItem fuel (c :: t)
      else if c = ',' then
        match skipSpace t with
        | ']' :: _ => ([.broken .malformed .malformed], none, none)
        | t => readItem fuel t
      else ([], some .malformed, none)

def readItem : Nat → Text → List Draft × Option Fault × Option Text
  | 0, _ => ([], some .malformed, none)
  | fuel + 1, t =>
    match read fuel t with
    | (item, none) => ([item], none, none)
    | (item, some t) =>
      match readItems fuel false t with
      | (items, stop, rest) => (item :: items, stop, rest)

def readMembers :
    Nat → Bool → Text → List (Except Fault Text × Draft) × Option Fault × Option Text
  | 0, _, _ => ([], some .malformed, none)
  | fuel + 1, first, t =>
    match skipSpace t with
    | [] => ([], some .truncated, none)
    | '\x7d' :: t => ([], none, some t)
    | c :: t =>
      if first then
        if c = '"' then readMember fuel t else ([], some .malformed, none)
      else if c = ',' then
        match skipSpace t with
        | [] => ([], some .truncated, none)
        | '"' :: t => readMember fuel t
        | _ => ([], some .malformed, none)
      else ([], some .malformed, none)

/-- Reads a member behind the quote that opens its key, and the members behind it. -/
def readMember : Nat → Text → List (Except Fault Text × Draft) × Option Fault × Option Text
  | 0, _ => ([], some .malformed, none)
  | fuel + 1, t =>
    match (StringScan.ofText t).draft with
    | (.string key, some t) =>
      match skipSpace t with
      | [] => ([(key, .broken .truncated .truncated)], none, none)
      | ':' :: t =>
        match read fuel t with
        | (value, none) => ([(key, value)], none, none)
        | (value, some t) =>
          match readMembers fuel false t with
          | (members, stop, rest) => ((key, value) :: members, stop, rest)
      | _ => ([(key, .broken .malformed .malformed)], none, none)
    | (.broken read skip, _) => ([(.error read, .broken skip skip)], none, none)
    | _ => ([], some .malformed, none)

end

/-- The draft of a text and what stands behind it. Reading takes at most three
steps for a character. -/
def ofText (t : Text) : Read := read (3 * t.length + 3) t

end Draft

def ofText? (t : Text) : Except Fault Json := do
  let (draft, rest) := Draft.ofText t
  let v ← draft.value?
  if (skipSpace (rest.getD [])).isEmpty then return v else throw .malformed

end Json
end MethodLines
