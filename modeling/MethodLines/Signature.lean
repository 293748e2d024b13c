import MethodLines.Text

/-! Method signatures as records, and the one line of text each is written as.
`Signature.WellFormed` says token by token which records a line can stand for. -/
namespace MethodLines

/-- One parameter of a method. -/
structure Argument where
  type : Text
  name : Text
deriving DecidableEq

/-- A method signature. Any texts may be put into the fields; see
`Signature.check` for the records that a line can stand for. -/
structure Signature where
  modifier : Option Text
  returnType : Text
  name : Text
  arguments : List Argument
deriving DecidableEq

namespace Argument

def render (a : Argument) : Text := a.type ++ " " ++ a.name

/-- The type may not end in a comma: the comma and the blank after it would
read as a separator of arguments. -/
def WellFormed (a : Argument) : Prop :=
  a.type ≠ [] ∧ ' ' ∉ a.type ∧ '(' ∉ a.type ∧ ')' ∉ a.type ∧ a.type.getLast? ≠ some ',' ∧
    a.name ≠ [] ∧ ' ' ∉ a.name ∧ '(' ∉ a.name ∧ ')' ∉ a.name

instance (a : Argument) : Decidable a.WellFormed := inferInstanceAs (Decidable (_ ∧ _))

end Argument

namespace Signature

/-- The tokens before the opening parenthesis, in order. -/
def tokens (s : Signature) : List Text := s.modifier.toList ++ [s.returnType, s.name]

def head (s : Signature) : Text := (" " : Text).intercalate s.tokens

def body (s : Signature) : Text := (", " : Text).intercalate (s.arguments.map Argument.render)

def render (s : Signature) : Text := s.head ++ "(" ++ s.body ++ ")"

def arity (s : Signature) : Nat := s.arguments.length

/-- A token before the opening parenthesis may hold anything but a blank or
an opening parenthesis, and has to hold something. -/
def HeadToken (t : Text) : Prop := t ≠ [] ∧ ' ' ∉ t ∧ '(' ∉ t

instance (t : Text) : Decidable (HeadToken t) := inferInstanceAs (Decidable (_ ∧ _))

def WellFormed (s : Signature) : Prop :=
  (∀ t ∈ s.tokens, HeadToken t) ∧ ∀ a ∈ s.arguments, a.WellFormed

instance (s : Signature) : Decidable s.WellFormed := inferInstanceAs (Decidable (_ ∧ _))

end Signature
end MethodLines
