import MethodLines.Json.Decoding
import MethodLines.Signature.Traced

/-! Signatures as JSON: an object with four members, or an array of their values
in order. What is decoded is checked, so no record comes out that its line does
not stand for. -/
namespace MethodLines

open Json

namespace Argument

def toJson (a : Argument) : Json :=
  .object [("type", .string a.type), ("name", .string a.name)]

structure Fields where
  type : Option Text := none
  name : Option Text := none

def Fields.member (fields : Fields) (key : Text) (d : Draft) : Decoded Fields :=
  if key = ("type" : Text) then return { fields with type := ← once key fields.type d.toText }
  else if key = ("name" : Text) then return { fields with name := ← once key fields.name d.toText }
  else do
    d.ignored
    return fields

def ofItems : List Draft → Option Fault → Decoded Argument
  | [], stop => do
    Draft.ended stop
    throw (.tooShort 0 "struct Argument with 2 elements")
  | type :: items, stop => do
    let type ← type.toText
    match items with
    | [] =>
      Draft.ended stop
      throw (.tooShort 1 "struct Argument with 2 elements")
    | name :: items =>
      let name ← name.toText
      Draft.endedFields items stop
      return ⟨type, name⟩

def ofDraft : Draft → Decoded Argument
  | .array items stop => ofItems items stop
  | .object members stop => do
    let fields ← Draft.gather Fields.member {} members stop
    return ⟨← required "type" fields.type, ← required "name" fields.name⟩
  | d => d.otherKind "struct Argument"

end Argument

namespace Signature

def toJson (s : Signature) : Json :=
  .object [
    ("access_modifier", s.modifier.elim .null .string),
    ("return_type", .string s.returnType),
    ("method_name", .string s.name),
    ("arguments", .array (s.arguments.map Argument.toJson))]

structure Fields where
  modifier : Option (Option Text) := none
  returnType : Option Text := none
  name : Option Text := none
  arguments : Option (List Argument) := none

def Fields.member (fields : Fields) (key : Text) (d : Draft) : Decoded Fields :=
  if key = ("access_modifier" : Text) then
    return { fields with modifier := ← once key fields.modifier d.toOptionalText }
  else if key = ("return_type" : Text) then
    return { fields with returnType := ← once key fields.returnType d.toText }
  else if key = ("method_name" : Text) then
    return { fields with name := ← once key fields.name d.toText }
  else if key = ("arguments" : Text) then
    return { fields with
      arguments := ← once key fields.arguments (d.toList Argument.ofDraft) }
  else do
    d.ignored
    return fields

/-- An absent modifier or list of arguments is as good as none. -/
def Fields.parts (fields : Fields) : Decoded Signature := do
  let returnType ← required "return_type" fields.returnType
  let name ← required "method_name" fields.name
  return ⟨fields.modifier.getD none, returnType, name, fields.arguments.getD []⟩

def shapeOfItems : Text := "struct SignatureFields with 4 elements"

def partsOfItems : List Draft → Option Fault → Decoded Signature
  | [], stop => do
    Draft.ended stop
    throw (.tooShort 1 shapeOfItems)
  | modifier :: items, stop => do
    let modifier ← modifier.toOptionalText
    match items with
    | [] =>
      Draft.ended stop
      throw (.tooShort 1 shapeOfItems)
    | returnType :: items =>
      let returnType ← returnType.toText
      match items with
      | [] =>
        Draft.ended stop
        throw (.tooShort 2 shapeOfItems)
      | name :: items =>
        let name ← name.toText
        match items with
        | [] =>
          Draft.ended stop
          return ⟨modifier, returnType, name, []⟩
        | arguments :: items =>
          let arguments ← arguments.toList Argument.ofDraft
          Draft.endedFields items stop
          return ⟨modifier, returnType, name, arguments⟩

/-- The parts that a draft gives, not yet checked. -/
def partsOfDraft : Draft → Decoded Signature
  | .array items stop => partsOfItems items stop
  | .object members stop => do
    let fields ← Draft.gather Fields.member {} members stop
    fields.parts
  | d => d.otherKind "struct SignatureFields"

end Signature

/-- Why a JSON text gives no value. -/
inductive DecodeFailure where
  | mismatch (m : Mismatch)
  | rejected (r : Rejection)
deriving DecidableEq

namespace DecodeFailure

def message : DecodeFailure → Text
  | .mismatch m => m.message
  | .rejected r => r.message

/-- The fault of form that the failure is, if it is one. -/
def fault? : DecodeFailure → Option Fault
  | .mismatch (.form fault) => some fault
  | _ => none

end DecodeFailure

/-- Only white space may stand behind a value. -/
def Json.endedText (rest : Option Text) : Except DecodeFailure Unit :=
  if (skipSpace (rest.getD [])).isEmpty then .ok () else .error (.mismatch (.form .malformed))

def Argument.ofJsonText (t : Text) : Except DecodeFailure Argument := do
  let (d, rest) := Draft.ofText t
  let a ← (Argument.ofDraft d).mapError .mismatch
  endedText rest
  return a

namespace Signature

/-- Decodes a text. The parts are checked before what stands behind them is
looked at. -/
def ofJsonTextTraced (t : Text) : Logged (Except DecodeFailure Signature) :=
  let (d, rest) := Draft.ofText t
  match partsOfDraft d with
  | .error m => pure (.error (.mismatch m))
  | .ok parts => do
    match ← parts.checkTraced with
    | .error r => return .error (.rejected r)
    | .ok s => return (endedText rest).map fun _ => s

def ofJsonText (t : Text) : Except DecodeFailure Signature := (ofJsonTextTraced t).value

end Signature
end MethodLines
