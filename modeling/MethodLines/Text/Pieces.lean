import MethodLines.Text

/-! Ways of taking a text apart: at the first occurrence of a character, at
every ", ", and into lines. -/
namespace MethodLines.Text

def cut? (c : Char) (t : Text) : Option (Text × Text) :=
  match t.dropWhile (· ≠ c) with
  | [] => none
  | _ :: after => some (t.takeWhile (· ≠ c), after)

def prepend (c : Char) : List Text → List Text
  | [] => [[c]]
  | piece :: rest => (c :: piece) :: rest

/-- The pieces between occurrences of ", ", found from the left. There is
always at least one, possibly empty. -/
def fragments : Text → List Text
  | [] => [[]]
  | ',' :: ' ' :: t => [] :: fragments t
  | c :: t => prepend c (fragments t)

/-- The lines of a text. A line feed ends a line and takes one carriage return
before it along; the text after the last line feed is a line only if it is not
empty, and keeps a final carriage return. -/
def lines : Text → List Text
  | [] => []
  | '\n' :: t => [] :: lines t
  | '\r' :: '\n' :: t => [] :: lines t
  | [c] => [[c]]
  | c :: t => prepend c (lines t)

end MethodLines.Text
