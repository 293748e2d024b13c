import MethodLines.Text.Pieces
import MethodLines.Signature
import MethodLines.Signature.Rejection

/-! Reading a line as a signature: the text before the first parenthesis is two
or three tokens, the text behind it arguments separated by ", ". The first
piece that does not fit is the reason for rejection. The closing parenthesis
may be left out. -/
namespace MethodLines.Signature

open Text

/-- The leftmost empty token, by its place in the list. -/
def emptyPlace? : List (TokenPlace × Text) → Option TokenPlace
  | [] => none
  | (place, []) :: _ => some place
  | _ :: rest => emptyPlace? rest

/-- Reads the text before the first parenthesis. A third token in front is an
access modifier whatever it says. -/
def readHead (head : Text) : Except Rejection (Option Text × Text × Text) :=
  match head.splitOn ' ' with
  | [modifier, returnType, name] =>
    match emptyPlace? [(.modifier, modifier), (.returnType, returnType), (.name, name)] with
    | some place => .error (.emptyToken head place)
    | none => .ok (some modifier, returnType, name)
  | [returnType, name] =>
    match emptyPlace? [(.returnType, returnType), (.name, name)] with
    | some place => .error (.emptyToken head place)
    | none => .ok (none, returnType, name)
  | tokens => .error (.tokenCount head tokens.length)

def readBody (rest : Text) : Except Rejection Text :=
  if '(' ∈ rest then .error (.reopened rest)
  else if ')' ∈ dropFinal ')' rest then .error (.closedWithin rest)
  else .ok (dropFinal ')' rest)

/-- Reads a fragment as a type, exactly one blank and a name. -/
def readArgument (fragment : Text) : Except Rejection Argument :=
  match cut? ' ' fragment with
  | some (type, name) =>
    if type ≠ [] ∧ name ≠ [] ∧ ' ' ∉ name then .ok ⟨type, name⟩ else .error (.argument fragment)
  | none => .error (.argument fragment)

def readArguments (body : Text) : Except Rejection (List Argument) :=
  if body = [] then .ok [] else (fragments body).mapM readArgument

def read (line : Text) : Except Rejection Signature :=
  match cut? '(' line with
  | none => .error (.unopened line)
  | some (head, rest) => do
    let (modifier, returnType, name) ← readHead head
    let body ← readBody rest
    let arguments ← readArguments body
    return ⟨modifier, returnType, name, arguments⟩

/-- Accepts a record only if its line stands for it again. -/
def check (s : Signature) : Except Rejection Signature := do
  let reading ← read s.render
  if reading = s then return s else throw (.ambiguous s.render)

end MethodLines.Signature
