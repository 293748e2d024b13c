import MethodLines.Settings
import MethodLines.Toml.Reading

/-! Settings as a TOML document with the sections `input`, `batch` and `output`.
Whatever is left out has its default, and what is not known is passed over. -/
namespace MethodLines

namespace Toml.Value

mutual

/-- Whether a value can be passed over: all its numbers have to be numbers indeed,
and of a size that can be represented. -/
def isPassable : Value → Bool
  | .integer (some n) => -(Nat.pow 2 127 : Nat) ≤ n && n < (Nat.pow 2 128 : Nat)
  | .integer none => false
  | .float representable => representable
  | .array _ items => arePassable items
  | .table _ entries => arePassableEntries entries
  | .string _ | .boolean _ | .datetime => true

def arePassable : List Value → Bool
  | [] => true
  | v :: items => isPassable v && arePassable items

def arePassableEntries : List (Text × Value) → Bool
  | [] => true
  | (_, v) :: entries => isPassable v && arePassableEntries entries

end

def text? : Value → Option Text
  | .string t => some t
  | _ => none

def boolean? : Value → Option Bool
  | .boolean b => some b
  | _ => none

/-- Whether a value says nothing more than that it is there. -/
def isVoid : Value → Bool
  | .array _ [] | .table _ [] => true
  | _ => false

/-- A form of reports: its name, or a table of its name and nothing. -/
def format? : Value → Option Format
  | .string name => Format.ofName? name
  | .table _ [(name, v)] => if v.isVoid then Format.ofName? name else none
  | _ => none

/-- A section: a table, or an array of its values in order. A date counts as a
table without known keys. -/
def section? {σ : Type} (initial : σ) (entry : σ → Text → Value → Option σ)
    (ofItems : List Value → Option σ) : Value → Option σ
  | .table _ entries => entries.foldlM (fun s e => entry s e.1 e.2) initial
  | .array _ items => ofItems items
  | .datetime => some initial
  | _ => none

end Toml.Value

open Toml

/-- Leaves what was known as it is, if a value can be passed over. -/
def passing {σ : Type} (known : σ) (v : Value) : Option σ :=
  if v.isPassable then some known else none

namespace InputRules

def entry (rules : InputRules) (key : Text) (v : Value) : Option InputRules :=
  if key = ("comment_prefix" : Text) then v.text?.map fun mark => { rules with commentMark := mark }
  else if key = ("skip_blank_lines" : Text) then
    v.boolean?.map fun b => { rules with skipBlank := b }
  else passing rules v

def ofItems : List Value → Option InputRules
  | [] => some {}
  | [mark] => return { commentMark := ← mark.text? }
  | mark :: skip :: _ => return { commentMark := ← mark.text?, skipBlank := ← skip.boolean? }

end InputRules

namespace BatchRules

def entry (rules : BatchRules) (key : Text) (v : Value) : Option BatchRules :=
  if key = ("parallel" : Text) then v.boolean?.map fun b => { rules with parallel := b }
  else if key = ("fail_fast" : Text) then v.boolean?.map fun b => { rules with failFast := b }
  else passing rules v

def ofItems : List Value → Option BatchRules
  | [] => some {}
  | [parallel] => return { parallel := ← parallel.boolean? }
  | parallel :: failFast :: _ =>
    return { parallel := ← parallel.boolean?, failFast := ← failFast.boolean? }

end BatchRules

namespace OutputRules

def entry (rules : OutputRules) (key : Text) (v : Value) : Option OutputRules :=
  if key = ("default_format" : Text) then v.format?.map fun f => { rules with format := some f }
  else if key = ("use_color" : Text) then v.boolean?.map fun b => { rules with color := some b }
  else passing rules v

/-- The form has no default here. -/
def ofItems : List Value → Option OutputRules
  | [] => none
  | [format] => return { format := some (← format.format?) }
  | format :: color :: _ =>
    return { format := some (← format.format?), color := some (← color.boolean?) }

end OutputRules

namespace Settings

def entry (s : Settings) (key : Text) (v : Value) : Option Settings :=
  if key = ("input" : Text) then
    (v.section? {} InputRules.entry InputRules.ofItems).map fun input => { s with input }
  else if key = ("batch" : Text) then
    (v.section? {} BatchRules.entry BatchRules.ofItems).map fun batch => { s with batch }
  else if key = ("output" : Text) then
    (v.section? {} OutputRules.entry OutputRules.ofItems).map fun output => { s with output }
  else passing s v

def ofEntries (entries : Entries) : Option Settings :=
  entries.foldlM (fun s e => entry s e.1 e.2) {}

/-- The settings of a document, if it is valid as a whole. -/
def ofText? (t : Text) : Option Settings := (Toml.ofText? t).bind ofEntries

def fileName : Text := ".sigparse.toml"

def initialText : Text :=
  [("# sigparse configuration" : Text), "",
    "[input]", "comment_prefix = \"#\"", "skip_blank_lines = true", "",
    "[batch]", "parallel = true", "fail_fast = false", "",
    "[output]", "default_format = \"terminal\""].flatMap fun line => line ++ ['\n']

end Settings
end MethodLines
