import MethodLines.Json

/-! What can be made of a text that should be JSON: the value up to the place
where the text goes wrong, and what is wrong there. Keeping the part before the
fault lets a reader of values find a fault of meaning that stands earlier in the
text than the fault of form. -/
namespace MethodLines.Json

inductive Fault where
  /-- A character stands where it cannot. -/
  | malformed
  /-- The text ends too early. -/
  | truncated
deriving DecidableEq

/-- A text read as JSON as far as possible. A string, as a value or as a key, is
an error if its escapes do not pair up surrogates: it is no text then, but it can
be passed over. -/
inductive Draft where
  | null
  | bool (b : Bool)
  | number (n : Number)
  | string (t : Except Fault Text)
  /-- The items, and what is wrong where the next comma or the end should be. -/
  | array (items : List Draft) (stop : Option Fault)
  /-- The members, and what is wrong where the next comma, key or the end should be. -/
  | object (members : List (Except Fault Text × Draft)) (stop : Option Fault)
  /-- No value: the fault met by one who reads it, and by one who passes over it. -/
  | broken (read skip : Fault)

namespace Draft

mutual

/-- The draft of a text that is all well. -/
def ofJson : Json → Draft
  | .null => .null
  | .bool b => .bool b
  | .number n => .number n
  | .string t => .string (.ok t)
  | .array items => .array (ofItems items) none
  | .object members => .object (ofMembers members) none

def ofItems : List Json → List Draft
  | [] => []
  | v :: items => ofJson v :: ofItems items

def ofMembers : List (Text × Json) → List (Except Fault Text × Draft)
  | [] => []
  | (key, v) :: members => (.ok key, ofJson v) :: ofMembers members

end

mutual

/-- The value, if the text is well up to its end. -/
def value? : Draft → Except Fault Json
  | .null => .ok .null
  | .bool b => .ok (.bool b)
  | .number n => .ok (.number n)
  | .string (.ok t) => .ok (.string t)
  | .string (.error fault) => .error fault
  | .array items stop => return .array (← items? items stop)
  | .object members stop => return .object (← members? members stop)
  | .broken read _ => .error read

def items? : List Draft → Option Fault → Except Fault (List Json)
  | [], none => .ok []
  | [], some fault => .error fault
  | d :: items, stop => return (← value? d) :: (← items? items stop)

def members? :
    List (Except Fault Text × Draft) → Option Fault → Except Fault (List (Text × Json))
  | [], none => .ok []
  | [], some fault => .error fault
  | (.error fault, _) :: _, _ => .error fault
  | (.ok key, d) :: members, stop => return (key, ← value? d) :: (← members? members stop)

end

mutual

/-- Passes over a value of which nothing is wanted: only its form counts. -/
def skip : Draft → Except Fault Unit
  | .array items stop => skipItems items stop
  | .object members stop => skipMembers members stop
  | .broken _ skip => .error skip
  | _ => .ok ()

def skipItems : List Draft → Option Fault → Except Fault Unit
  | [], none => .ok ()
  | [], some fault => .error fault
  | d :: items, stop => do skip d; skipItems items stop

def skipMembers : List (Except Fault Text × Draft) → Option Fault → Except Fault Unit
  | [], none => .ok ()
  | [], some fault => .error fault
  | (_, d) :: members, stop => do skip d; skipMembers members stop

end

end Draft
end MethodLines.Json
