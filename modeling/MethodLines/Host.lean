import MethodLines.FileTree
import MethodLines.Log

/-! What a command asks of the system it runs on, and a world in which that is a
function of a file tree: the commands are the same in both. -/
namespace MethodLines

/-- A system to run commands on. Paths are relative to its current folder. -/
class Host (m : Type → Type) where
  readFile : Text → m (Except FileFault ByteArray)
  fileExists : Text → m Bool
  /-- Leaves an empty file at the path. -/
  createFile : Text → m (Except FileFault Unit)
  appendFile : Text → ByteArray → m (Except FileFault Unit)
  readInput : m (Except FileFault ByteArray)
  print : Text → m (Except FileFault Unit)
  log : Log.Record → m Unit
  /-- The absolute path of the current folder. -/
  currentFolder : m (Except FileFault Text)

/-- A world of one file tree. Records are kept in order of emission. -/
structure World where
  tree : FileTree
  folder : Place := []
  input : ByteArray := .empty
  output : Text := []
  records : List Log.Record := []

namespace World

def pathOf (place : Place) : Text := "/" ++ ("/" : Text).intercalate place

/-- An operation that replaces the tree if it succeeds. -/
def change (f : FileTree → Except FileFault FileTree) : StateM World (Except FileFault Unit) :=
  fun w =>
    match f w.tree with
    | .ok tree => (.ok (), { w with tree })
    | .error fault => (.error fault, w)

instance : Host (StateM World) where
  readFile path := fun w => (w.tree.read w.folder path, w)
  fileExists path := fun w => (w.tree.exists w.folder path, w)
  createFile path := fun w => change (·.create w.folder path) w
  appendFile path bytes := fun w => change (·.append w.folder path bytes) w
  readInput := fun w => (.ok w.input, w)
  print t := fun w => (.ok (), { w with output := w.output ++ t })
  log r := fun w => ((), { w with records := w.records ++ [r] })
  currentFolder := fun w =>
    match w.tree.entry? w.folder with
    | some .folder => (.ok (pathOf w.folder), w)
    | _ => (.error .missing, w)

end World
end MethodLines
