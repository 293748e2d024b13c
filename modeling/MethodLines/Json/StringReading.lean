import MethodLines.Json.Draft

/-! The inside of a JSON string: first its units, where an escape may be half of
a surrogate pair, then the text they make up. -/
namespace MethodLines.Json

/-- A character, or one half of a pair. -/
inductive StringUnit where
  | char (c : Char)
  | half (code : Nat)
deriving DecidableEq

namespace StringUnit

def ofCode (n : Nat) : StringUnit :=
  match Text.ofCode? n with
  | some c => .char c
  | none => .half n

def IsLeading (n : Nat) : Prop := 0xd800 ≤ n ∧ n < 0xdc00

def IsTrailing (n : Nat) : Prop := 0xdc00 ≤ n ∧ n < 0xe000

instance (n : Nat) : Decidable (IsLeading n) := inferInstanceAs (Decidable (_ ∧ _))

instance (n : Nat) : Decidable (IsTrailing n) := inferInstanceAs (Decidable (_ ∧ _))

def pair (leading trailing : Nat) : Char :=
  Char.ofNat (0x10000 + (leading - 0xd800) * 0x400 + (trailing - 0xdc00))

/-- The text of units whose halves pair up. `atEnd` is the answer for a leading
half with nothing behind it. -/
def join (atEnd : Except Fault Text) : List StringUnit → Except Fault Text
  | [] => .ok []
  | .char c :: rest => (join atEnd rest).map (c :: ·)
  | .half n :: .half m :: rest =>
    if IsLeading n ∧ IsTrailing m then (join atEnd rest).map (pair n m :: ·)
    else .error .malformed
  | [.half n] => if IsLeading n then atEnd else .error .malformed
  | .half _ :: .char _ :: _ => .error .malformed

end StringUnit

/-- The units up to the closing quote and the text behind it, or up to a fault. -/
structure StringScan where
  units : List StringUnit
  rest : Except Fault Text

namespace StringScan

def push (u : StringUnit) (s : StringScan) : StringScan := ⟨u :: s.units, s.rest⟩

def stop (fault : Fault) : StringScan := ⟨[], .error fault⟩

def short? (c : Char) : Option Char :=
  [('"', '"'), ('\\', '\\'), ('/', '/'), ('b', '\x08'), ('f', '\x0c'), ('n', '\n'), ('r', '\r'),
    ('t', '\t')].lookup c

def code? (a b c d : Char) : Option Nat := do
  return (((← Text.hexDigit? a) * 16 + (← Text.hexDigit? b)) * 16 + (← Text.hexDigit? c)) * 16 +
    (← Text.hexDigit? d)

/-- The scan of a text behind an opening quote. A numeric escape is cut short by
the end of the text if fewer than four bytes are left of it. -/
def ofText : Text → StringScan
  | [] => stop .truncated
  | '"' :: t => ⟨[], .ok t⟩
  | '\\' :: 'u' :: a :: b :: c :: d :: t =>
    match code? a b c d with
    | some n => push (.ofCode n) (ofText t)
    | none => stop .malformed
  | '\\' :: 'u' :: t => stop (if (Text.bytes t).size < 4 then .truncated else .malformed)
  | '\\' :: c :: t =>
    match short? c with
    | some e => push (.char e) (ofText t)
    | none => stop .malformed
  | ['\\'] => stop .truncated
  | c :: t => if c.toNat < 0x20 then stop .malformed else push (.char c) (ofText t)

/-- The string as a draft, and the text behind it unless reading stops there. A
string that is cut short is malformed already if its units fail to pair up before
the cut. -/
def draft (s : StringScan) : Draft × Option Text :=
  match s.rest with
  | .ok rest => (.string (StringUnit.join (.error .malformed) s.units), some rest)
  | .error fault =>
    match StringUnit.join (.error fault) s.units with
    | .ok _ => (.broken fault fault, none)
    | .error first => (.broken first fault, none)

end StringScan
end MethodLines.Json
