import MethodLines.Json.Approximation
import MethodLines.Json.Reading
import MethodLines.Text.Quoted

/-! Taking values out of drafts. A fault of form is met where it stands in the
text, so whichever fault comes first is the one that is reported. -/
namespace MethodLines.Json

/-- Why no value of the wanted kind could be taken out. -/
inductive Mismatch where
  | form (fault : Fault)
  | kind (found expected : Text)
  | missing (field : Text)
  | duplicate (field : Text)
  /-- An array that stands for a record ends before a field that has no default. -/
  | tooShort (length : Nat) (expected : Text)
deriving DecidableEq

namespace Mismatch

/-- What is wrong with the meaning of a text. Faults of form have no wording of
their own. -/
def message : Mismatch → Text
  | .form _ => []
  | .kind found expected => "invalid type: " ++ found ++ ", expected " ++ expected
  | .missing field => "missing field \x60" ++ field ++ "\x60"
  | .duplicate field => "duplicate field \x60" ++ field ++ "\x60"
  | .tooShort length expected =>
    "invalid length " ++ Text.decimal length ++ ", expected " ++ expected

end Mismatch

abbrev Decoded := Except Mismatch

/-- A number, as a message describes it. One that is too large for a
floating-point number has no value and counts as malformed. -/
def Number.describe (n : Number) : Except Fault Text :=
  match n.integer? with
  | some (.ofNat m) => .ok ("integer \x60" ++ Text.decimal m ++ "\x60")
  | some (.negSucc m) => .ok ("integer \x60-" ++ Text.decimal (m + 1) ++ "\x60")
  | none =>
    match n.approximation? with
    | some f => .ok ("floating point \x60" ++ Approximation.render f ++ "\x60")
    | none => .error .malformed

namespace Draft

/-- What a message calls the value. Of arrays and objects only the start is read. -/
def describe : Draft → Except Fault Text
  | .null => .ok "null"
  | .bool true => .ok "boolean \x60true\x60"
  | .bool false => .ok "boolean \x60false\x60"
  | .number n => n.describe
  | .string (.ok t) => .ok ("string " ++ t.quoted)
  | .string (.error fault) => .error fault
  | .array .. => .ok "sequence"
  | .object .. => .ok "map"
  | .broken read _ => .error read

def otherKind {α : Type} (d : Draft) (expected : Text) : Decoded α :=
  match d.describe with
  | .ok found => .error (.kind found expected)
  | .error fault => .error (.form fault)

def toText : Draft → Decoded Text
  | .string (.ok t) => .ok t
  | d => d.otherKind "a string"

def toOptionalText : Draft → Decoded (Option Text)
  | .null => .ok none
  | d => d.toText.map some

/-- The end of a list of which no more is wanted. -/
def ended : Option Fault → Decoded Unit
  | none => .ok ()
  | some fault => .error (.form fault)

/-- The end of an array that stands for a record: anything behind the last field
is malformed. -/
def endedFields : List Draft → Option Fault → Decoded Unit
  | [], stop => ended stop
  | _ :: _, _ => .error (.form .malformed)

def toList {α : Type} (item : Draft → Decoded α) : Draft → Decoded (List α)
  | .array items stop => do
    let values ← items.mapM item
    ended stop
    return values
  | d => d.otherKind "a sequence"

/-- What is passed over still has to be well formed. -/
def ignored (d : Draft) : Decoded Unit :=
  match d.skip with
  | .ok () => .ok ()
  | .error fault => .error (.form fault)

def gather {σ : Type} (member : σ → Text → Draft → Decoded σ) :
    σ → List (Except Fault Text × Draft) → Option Fault → Decoded σ
  | fields, [], stop => do
    ended stop
    return fields
  | _, (.error fault, _) :: _, _ => .error (.form fault)
  | fields, (.ok key, d) :: members, stop => do
    gather member (← member fields key d) members stop

end Draft

def once {α : Type} (field : Text) (known : Option α) (value : Decoded α) : Decoded (Option α) :=
  match known with
  | some _ => .error (.duplicate field)
  | none => value.map some

def required {α : Type} (field : Text) : Option α → Decoded α
  | some value => .ok value
  | none => .error (.missing field)

end MethodLines.Json
