import MethodLines.Text

/-! Text as it is written where no terminal reads it: without sequences that a
terminal would obey, and without controls other than layout. -/
namespace MethodLines.Ansi

/-- Where a terminal stands in the text. -/
inductive Stance where
  | ground
  /-- Behind an escape character. -/
  | escape
  /-- In an escape sequence of several characters. -/
  | escapeRest
  /-- In a sequence that an opening bracket started: a letter ends it. -/
  | control
  /-- In a command to the terminal: a bell ends it. -/
  | command
  /-- At the start of a string for the device. -/
  | device
  /-- In the parameters of such a string. -/
  | deviceParameters
  /-- Behind the parameters of such a string. -/
  | deviceRest
  /-- In a string for the device or the program: the string terminator ends it. -/
  | payload
deriving DecidableEq

/-- Controls that lay out a text. -/
def isLayout (c : Char) : Bool := c = '\t' || c = '\n' || c = '\x0c' || c = '\r'

/-- Whether a character is seen where no sequence is open. -/
def isVisible (c : Char) : Bool := isLayout c || (' ' ≤ c && c ≠ '\x7f')

def isAscii (c : Char) : Bool := c.toNat < 0x80

/-- Whether the UTF-8 bytes of a character have that of the string terminator among
them. -/
def hasTerminator (c : Char) : Bool := (Text.bytes [c]).toList.contains 0x9c

/-- How a sequence goes on behind an ASCII character that cancels none. -/
def Stance.next (c : Char) : Stance → Stance
  | .ground => .ground
  | .escape =>
    if c = '[' then .control
    else if c = ']' then .command
    else if c = 'P' then .device
    else if c = 'X' ∨ c = '^' ∨ c = '_' then .payload
    else if ' ' ≤ c ∧ c ≤ '/' then .escapeRest
    else if '0' ≤ c ∧ c ≤ '~' then .ground
    else .escape
  | .escapeRest => if '0' ≤ c ∧ c ≤ '~' then .ground else .escapeRest
  | .control => if '@' ≤ c ∧ c ≤ '~' then .ground else .control
  | .command => if c = '\x07' then .ground else .command
  | .device =>
    if ' ' ≤ c ∧ c ≤ '/' then .deviceRest
    else if '0' ≤ c ∧ c ≤ '?' then .deviceParameters
    else if '@' ≤ c ∧ c ≤ '~' then .payload
    else .device
  | .deviceParameters =>
    if ' ' ≤ c ∧ c ≤ '/' then .deviceRest
    else if '<' ≤ c ∧ c ≤ '~' then .payload
    else .deviceParameters
  | .deviceRest => if '0' ≤ c ∧ c ≤ '~' then .payload else .deviceRest
  | .payload => .payload

/-- Where a terminal stands behind any character. An escape character and the two
controls that cancel a sequence do so everywhere. -/
def Stance.after (c : Char) (stance : Stance) : Stance :=
  if c = '\x1b' then .escape
  else if c = '\x18' ∨ c = '\x1a' then .ground
  else if isAscii c then stance.next c
  else if stance = .payload ∧ hasTerminator c then .ground
  else stance

def Stance.shows (c : Char) : Stance → Bool
  | .ground => isVisible c
  | .escape | .escapeRest | .control => isLayout c
  | .command | .device | .deviceParameters | .deviceRest | .payload => false

/-- What is written of a text. From a character that is written on, all visible ones
are; layout inside a sequence leaves it open, and the next control goes on with it
unless a character outside ASCII came before. -/
def plainFrom (writing : Bool) (stance : Stance) : Text → Text
  | [] => []
  | c :: t =>
    if if writing then isVisible c else stance.shows c then
      c :: plainFrom true (if isAscii c then stance else .ground) t
    else plainFrom false (stance.after c) t

def plain (t : Text) : Text := plainFrom false .ground t

end MethodLines.Ansi
