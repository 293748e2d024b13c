import MethodLines.Text

/-! TOML tables: how statements of a document build them up. A table remembers
how it came about, because that decides what may still be added to it. -/
namespace MethodLines.Toml

inductive Origin where
  /-- Named by a header of its own; the whole document counts as one. -/
  | header
  /-- Only passed through by a header of a table inside it. -/
  | parent
  /-- Only passed through by dotted keys. -/
  | dotted
  /-- Written between braces: nothing can be added. -/
  | inline
deriving DecidableEq

/-- Values, as far as their meaning is told apart here. -/
inductive Value where
  | string (t : Text)
  /-- An integer. Digits of a wrong kind, or none, only make the form of one. -/
  | integer (n : Option Int)
  /-- A number that is no integer, and whether it is small enough to be one in
  floating point. -/
  | float (representable : Bool)
  | boolean (b : Bool)
  | datetime
  /-- An array that headers build up can be extended by them. -/
  | array (extensible : Bool) (items : List Value)
  | table (origin : Origin) (entries : List (Text × Value))

abbrev Entries := List (Text × Value)

namespace Entries

def replace (key : Text) (v : Value) (entries : Entries) : Entries :=
  entries.map fun e => if e.1 = key then (key, v) else e

/-- Changes the table that a path leads to, making the tables on the way where
there are none. Of an array that headers build up the path enters the last table.
Dotted keys cannot enter tables that have a header. -/
def alter (dotted : Bool) (change : Origin → Entries → Option Entries) :
    List Text → Origin → Entries → Option Entries
  | [], origin, entries => change origin entries
  | key :: path, _, entries =>
    match entries.lookup key with
    | none => do
      let origin := if dotted then .dotted else .parent
      let inner ← alter dotted change path origin []
      return entries ++ [(key, .table origin inner)]
    | some (.table origin inner) =>
      if origin = .inline ∨ (dotted ∧ origin = .header) then none
      else do
        let inner ← alter dotted change path origin inner
        return entries.replace key (.table origin inner)
    | some (.array true items) =>
      match items.getLast? with
      | some (.table origin inner) => do
        let inner ← alter dotted change path origin inner
        return entries.replace key (.array true (items.dropLast ++ [.table origin inner]))
      | _ => none
    | some _ => none

/-- Adds a value under a new key. `dotted` says whether dotted keys led here, and
only they may add to a table that dotted keys made. -/
def add (dotted : Bool) (key : Text) (v : Value) (origin : Origin) (entries : Entries) :
    Option Entries :=
  if (dotted ↔ origin = .dotted) ∧ (entries.lookup key).isNone then some (entries ++ [(key, v)])
  else none

/-- Adds a value under a dotted key, given as the keys before the last and the last. -/
def addAt (path : List Text) (key : Text) (v : Value) (origin : Origin) (entries : Entries) :
    Option Entries :=
  entries.alter true (add (!path.isEmpty) key v) path origin

/-- Gives a table its header. That can be done once. -/
def openTable (key : Text) (_ : Origin) (entries : Entries) : Option Entries :=
  match entries.lookup key with
  | none => some (entries ++ [(key, .table .header [])])
  | some (.table .parent inner) => some (entries.replace key (.table .header inner))
  | some _ => none

/-- Adds one more table to an array that headers build up. -/
def openElement (key : Text) (_ : Origin) (entries : Entries) : Option Entries :=
  match entries.lookup key with
  | none => some (entries ++ [(key, .array true [.table .header []])])
  | some (.array true items) =>
    some (entries.replace key (.array true (items ++ [.table .header []])))
  | some _ => none

end Entries

/-- A line of a document that says something. -/
inductive Statement where
  /-- The header of a table. -/
  | table (path : List Text) (key : Text)
  /-- The header of one more table of an array. -/
  | element (path : List Text) (key : Text)
  /-- A key, dotted or not, and its value. -/
  | entry (path : List Text) (key : Text) (v : Value)

/-- A document so far: its entries, and the path of the table that entries go to. -/
structure Document where
  entries : Entries := []
  current : List Text := []

namespace Document

def add (d : Document) : Statement → Option Document
  | .table path key => do
    let entries ← d.entries.alter false (Entries.openTable key) path .header
    return ⟨entries, path ++ [key]⟩
  | .element path key => do
    let entries ← d.entries.alter false (Entries.openElement key) path .header
    return ⟨entries, path ++ [key]⟩
  | .entry path key v => do
    let entries ← d.entries.alter false (fun origin inner => inner.addAt path key v origin)
      d.current .header
    return ⟨entries, d.current⟩

/-- The entries that statements build up, unless they contradict each other. -/
def build? (statements : List Statement) : Option Entries :=
  (statements.foldlM add {}).map Document.entries

end Document
end MethodLines.Toml
