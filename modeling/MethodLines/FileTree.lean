import MethodLines.Text

/-! File trees: what stands at each place, how a path leads to a place, and
reading and creating files there. A place is the list of names that lead to it
from the root. -/
namespace MethodLines

/-- Why a file operation fails. -/
inductive FileFault where
  | missing
  | notFolder
  | isFolder
  | nameTooLong
  | noSpace
  /-- A path cannot hold a NUL character. -/
  | nulInPath
  /-- The file holds no text. -/
  | notUtf8
  /-- Any other fault, in the words of the system. -/
  | other (description : Text)
deriving DecidableEq

def FileFault.message : FileFault → Text
  | .missing => "No such file or directory (os error 2)"
  | .notFolder => "Not a directory (os error 20)"
  | .isFolder => "Is a directory (os error 21)"
  | .nameTooLong => "File name too long (os error 36)"
  | .noSpace => "No space left on device (os error 28)"
  | .nulInPath => "file name contained an unexpected NUL byte"
  | .notUtf8 => "stream did not contain valid UTF-8"
  | .other description => description

abbrev Place := List Text

inductive FileEntry where
  | file (content : ByteArray)
  | folder
  /-- A device that accepts no bytes and has none to give. -/
  | full

/-- The entries of a tree by their places. The root is a folder in any case. -/
structure FileTree where
  entries : List (Place × FileEntry) := []

namespace FileTree

def entry? (tree : FileTree) (place : Place) : Option FileEntry :=
  if place = [] then some .folder else tree.entries.lookup place

/-- Puts an entry at a place, over what may stand there. -/
def put (tree : FileTree) (place : Place) (entry : FileEntry) : FileTree :=
  ⟨(place, entry) :: tree.entries.filter fun e => e.1 ≠ place⟩

/-- The longest name and the longest path, in bytes. -/
def nameLimit : Nat := 255

def pathLimit : Nat := 4095

/-- One step from a place that has to be a folder. -/
def step (tree : FileTree) (place : Place) (name : Text) : Except FileFault Place :=
  match tree.entry? place with
  | some .folder =>
    if name = ['.'] then .ok place
    else if name = ['.', '.'] then .ok place.dropLast
    else if nameLimit < name.bytes.size then .error .nameTooLong
    else if (tree.entry? (place ++ [name])).isSome then .ok (place ++ [name])
    else .error .missing
  | some _ => .error .notFolder
  | none => .error .missing

def walk (tree : FileTree) (place : Place) (names : List Text) : Except FileFault Place :=
  names.foldlM tree.step place

/-- A path taken apart: the place it starts from, the names it follows, and
whether a slash behind the last one asks for a folder. -/
structure Route where
  start : Place
  names : List Text
  folder : Bool

def route (base : Place) (path : Text) : Except FileFault Route :=
  if '\x00' ∈ path then .error .nulInPath
  else if path = [] then .error .missing
  else if pathLimit < path.bytes.size then .error .nameTooLong
  else .ok
    { start := if path.head? = some '/' then [] else base
      names := (path.splitOn '/').filter fun name => name ≠ []
      folder := path.getLast? = some '/' }

def locate (tree : FileTree) (base : Place) (path : Text) : Except FileFault Place := do
  let r ← route base path
  let place ← tree.walk r.start r.names
  match r.folder, tree.entry? place with
  | true, some .folder | false, _ => return place
  | true, _ => throw .notFolder

def «exists» (tree : FileTree) (base : Place) (path : Text) : Bool :=
  (tree.locate base path).isOk

def read (tree : FileTree) (base : Place) (path : Text) : Except FileFault ByteArray := do
  match tree.entry? (← tree.locate base path) with
  | some (.file content) => return content
  | some .full => return .empty
  | some .folder => throw .isFolder
  | none => throw .missing

/-- The place where a file can be written. The folder it stands in has to exist. -/
def target (tree : FileTree) (base : Place) (path : Text) : Except FileFault Place := do
  let r ← route base path
  match r.names.getLast? with
  | none => throw .isFolder
  | some name =>
    let place ← tree.walk r.start r.names.dropLast
    match tree.entry? place with
    | some .folder =>
      if name = ['.'] ∨ name = ['.', '.'] ∨ r.folder then throw .isFolder
      else if nameLimit < name.bytes.size then throw .nameTooLong
      else
        match tree.entry? (place ++ [name]) with
        | some .folder => throw .isFolder
        | _ => return place ++ [name]
    | some _ => throw .notFolder
    | none => throw .missing

/-- Opens a file for writing: it is empty afterwards. A device stays as it is. -/
def create (tree : FileTree) (base : Place) (path : Text) : Except FileFault FileTree := do
  let place ← tree.target base path
  match tree.entry? place with
  | some .full => return tree
  | _ => return tree.put place (.file .empty)

/-- Writes behind what an opened file holds. -/
def append (tree : FileTree) (base : Place) (path : Text) (bytes : ByteArray) :
    Except FileFault FileTree := do
  let place ← tree.target base path
  match tree.entry? place with
  | some (.file content) => return tree.put place (.file (content ++ bytes))
  | some .full => if bytes.isEmpty then return tree else throw .noSpace
  | _ => throw .missing

end FileTree
end MethodLines
