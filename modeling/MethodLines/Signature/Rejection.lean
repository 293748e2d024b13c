import MethodLines.Text

/-! Why a line is no signature, or a record no line. Each cause carries the part
of the text that could not be made sense of, and has a code that stays the same
when the wording changes. -/
namespace MethodLines

inductive TokenPlace where
  | modifier | returnType | name
deriving DecidableEq

namespace TokenPlace

def label : TokenPlace → Text
  | .modifier => "access modifier"
  | .returnType => "return type"
  | .name => "method name"

end TokenPlace

inductive Rejection where
  /-- The line has no opening parenthesis. -/
  | unopened (line : Text)
  /-- A second opening parenthesis follows the first. -/
  | reopened (rest : Text)
  /-- A closing parenthesis stands elsewhere than at the end. -/
  | closedWithin (rest : Text)
  /-- There are neither two nor three tokens before the opening parenthesis. -/
  | tokenCount (head : Text) (count : Nat)
  /-- A token before the opening parenthesis is empty. -/
  | emptyToken (head : Text) (place : TokenPlace)
  /-- An argument is not a type, one blank and a name. -/
  | argument (fragment : Text)
  /-- A record is written as a line that stands for another record. -/
  | ambiguous (rendered : Text)
deriving DecidableEq

namespace Rejection

def code : Rejection → Text
  | .unopened _ => "E010"
  | .reopened _ => "E011"
  | .closedWithin _ => "E012"
  | .tokenCount .. => "E013"
  | .emptyToken .. => "E014"
  | .argument _ => "E015"
  | .ambiguous _ => "E016"

def offending : Rejection → Text
  | .unopened t | .reopened t | .closedWithin t | .tokenCount t _ | .emptyToken t _
  | .argument t | .ambiguous t => t

def message : Rejection → Text
  | .unopened line => "missing '(' in signature '" ++ line ++ "'"
  | .reopened rest => "unexpected '(' in argument list '" ++ rest ++ "'"
  | .closedWithin rest => "unexpected ')' in argument list '" ++ rest ++ "'"
  | .tokenCount head count =>
    "expected 2 or 3 space-separated tokens before '(', found " ++ Text.decimal count ++
      " in '" ++ head ++ "'"
  | .emptyToken head place => "empty " ++ place.label ++ " in '" ++ head ++ "'"
  | .argument fragment => "argument '" ++ fragment ++ "' is not a 'type name' pair"
  | .ambiguous rendered =>
    "signature renders as '" ++ rendered ++ "', which parses to a different record"

end Rejection
end MethodLines
