import MethodLines.Text

/-! JSON values and their text, on one line or indented by two blanks a level. -/
namespace MethodLines

/-- A number as it is written: sign, digits before and after the point, and the
exponent if there is one. -/
structure Json.Number where
  negative : Bool
  whole : Nat
  fraction : List (Fin 10)
  exponent : Option Int
deriving DecidableEq

inductive Json where
  | null
  | bool (b : Bool)
  | number (n : Json.Number)
  | string (t : Text)
  | array (items : List Json)
  | object (members : List (Text × Json))

namespace Json

def Number.ofNat (n : Nat) : Number := ⟨false, n, [], none⟩

def nat (n : Nat) : Json := .number (.ofNat n)

def Number.render (n : Number) : Text :=
  (if n.negative then "-" else "" : Text) ++ Text.decimal n.whole ++
    (if n.fraction.isEmpty then "" else "." ++ n.fraction.map fun d => d.val.digitChar : Text) ++
    match n.exponent with
    | none => ""
    | some (.ofNat e) => "e" ++ Text.decimal e
    | some (.negSucc e) => "e-" ++ Text.decimal (e + 1)

/-- How one character stands in a string. Only quotes, backslashes and the
ASCII controls below the blank are escaped. -/
def escape (c : Char) : Text :=
  if c = '"' then "\\\""
  else if c = '\\' then "\\\\"
  else if c = '\x08' then "\\b"
  else if c = '\t' then "\\t"
  else if c = '\n' then "\\n"
  else if c = '\x0c' then "\\f"
  else if c = '\r' then "\\r"
  else if c.toNat < 0x20 then
    "\\u00" ++ [(c.toNat / 16).digitChar, (c.toNat % 16).digitChar]
  else [c]

def renderString (t : Text) : Text := "\"" ++ t.flatMap escape ++ "\""

/-- How the parts of a text are set apart. -/
structure Layout where
  indented : Bool

namespace Layout

def compact : Layout := ⟨false⟩

def pretty : Layout := ⟨true⟩

/-- What stands before an item, and before the closing bracket of a list that
is not empty. -/
def gap (layout : Layout) (depth : Nat) : Text :=
  if layout.indented then '\n' :: List.replicate (2 * depth) ' ' else []

def colon (layout : Layout) : Text := if layout.indented then ": " else ":"

end Layout

mutual

def renderAt (layout : Layout) (depth : Nat) : Json → Text
  | .null => "null"
  | .bool true => "true"
  | .bool false => "false"
  | .number n => n.render
  | .string t => renderString t
  | .array [] => "[]"
  | .array (v :: items) =>
    "[" ++ layout.gap (depth + 1) ++ renderAt layout (depth + 1) v ++
      renderItems layout (depth + 1) items ++ layout.gap depth ++ "]"
  | .object [] => "\x7b\x7d"
  | .object ((key, v) :: members) =>
    "\x7b" ++ layout.gap (depth + 1) ++ renderString key ++ layout.colon ++
      renderAt layout (depth + 1) v ++ renderMembers layout (depth + 1) members ++
      layout.gap depth ++ "\x7d"

def renderItems (layout : Layout) (depth : Nat) : List Json → Text
  | [] => []
  | v :: items =>
    "," ++ layout.gap depth ++ renderAt layout depth v ++ renderItems layout depth items

def renderMembers (layout : Layout) (depth : Nat) : List (Text × Json) → Text
  | [] => []
  | (key, v) :: members =>
    "," ++ layout.gap depth ++ renderString key ++ layout.colon ++ renderAt layout depth v ++
      renderMembers layout depth members

end

def compact (v : Json) : Text := renderAt .compact 0 v

def pretty (v : Json) : Text := renderAt .pretty 0 v

end Json
end MethodLines
