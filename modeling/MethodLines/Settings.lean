import MethodLines.Text.Blank

/-! What can be set: which input lines are left out, how a batch runs, and how
its report is written. -/
namespace MethodLines

/-- The forms a report can be written in. -/
inductive Format where
  | json | markdown | terminal
deriving DecidableEq

namespace Format

def all : List Format := [.json, .markdown, .terminal]

def name : Format → Text
  | .json => "json"
  | .markdown => "markdown"
  | .terminal => "terminal"

/-- Names are told apart by case. -/
def ofName? (name : Text) : Option Format := all.find? fun f => f.name = name

theorem ofName?_name (f : Format) : ofName? f.name = some f := by
  cases f <;> decide

end Format

/-- Which raw lines are left out of a batch. -/
structure InputRules where
  /-- A line that starts with this mark is a comment; no line is if it is empty. -/
  commentMark : Text := "#"
  skipBlank : Bool := true
deriving DecidableEq

namespace InputRules

/-- Rules that leave nothing out. -/
def verbatim : InputRules := ⟨[], false⟩

/-- Blanks around a line do not matter for whether it is left out. -/
def skips (rules : InputRules) (line : Text) : Bool :=
  let line := line.trim
  (rules.skipBlank && line.isEmpty) ||
    (!rules.commentMark.isEmpty && rules.commentMark.isPrefixOf line)

end InputRules

structure BatchRules where
  parallel : Bool := true
  /-- Nothing after the first failure is reported. -/
  failFast : Bool := false
deriving DecidableEq

structure OutputRules where
  /-- The terminal form if none is given. -/
  format : Option Format := none
  /-- Left to the terminal if not given. -/
  color : Option Bool := none
deriving DecidableEq

structure Settings where
  input : InputRules := {}
  batch : BatchRules := {}
  output : OutputRules := {}
deriving DecidableEq

end MethodLines
