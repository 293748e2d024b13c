import MethodLines.Text

/-! Styles of terminal output. A styled piece is the sequence that turns the
style on, the text, and the sequence that turns all styles off. -/
namespace MethodLines.Ansi

inductive Style where
  | bold | dimmed | red | green | yellow | blue | magenta | cyan | grey | boldRed
deriving DecidableEq

def Style.parameters : Style → Text
  | .bold => "1"
  | .dimmed => "2"
  | .red => "31"
  | .green => "32"
  | .yellow => "33"
  | .blue => "34"
  | .magenta => "35"
  | .cyan => "36"
  | .grey => "90"
  | .boldRed => "1;31"

def escapeChar : Char := '\x1b'

/-- The sequence that turns a style on. -/
def Style.start (s : Style) : Text := escapeChar :: '[' :: (s.parameters ++ "m")

def reset : Text := escapeChar :: "[0m"

/-- Turns the style on again wherever the text itself turns all styles off. -/
def resume (s : Style) : Text → Text
  | [] => []
  | '\x1b' :: '[' :: '0' :: 'm' :: t => reset ++ s.start ++ resume s t
  | c :: t => c :: resume s t

/-- The text in a style, or as it is if colour is off. -/
def paint (color : Bool) (s : Style) (t : Text) : Text :=
  if color then s.start ++ resume s t ++ reset else t

end MethodLines.Ansi
