import MethodLines.FileTree

/-! Writing texts one after the other, to something that may fail at any of them. -/
namespace MethodLines

variable {m : Type → Type} [Monad m]

/-- Something to write to: how a text is put there, and how all that was put is
handed on. -/
structure Outlet (m : Type → Type) where
  put : Text → ExceptT FileFault m Unit
  flush : ExceptT FileFault m Unit

/-- Puts texts in order, up to the first that fails, and hands them on if none does. -/
def Outlet.deliver (out : Outlet m) (texts : List Text) : ExceptT FileFault m Unit := do
  texts.forM out.put
  out.flush

/-- Where bytes go: what has arrived so far, and the room left, if it is limited. -/
structure Sink where
  held : ByteArray := .empty
  room : Option Nat := none

namespace Sink

/-- Takes what there is room for; whether that was all of it. -/
def write (sink : Sink) (bytes : ByteArray) : Sink × Bool :=
  match sink.room with
  | none => (⟨sink.held ++ bytes, none⟩, true)
  | some room =>
    (⟨sink.held ++ bytes.extract 0 room, some (room - bytes.size)⟩, bytes.size ≤ room)

/-- A sink that is written to at once. -/
def outlet : Outlet (StateM Sink) where
  put t := ExceptT.mk fun sink =>
    match sink.write t.bytes with
    | (sink, true) => (.ok (), sink)
    | (sink, false) => (.error .noSpace, sink)
  flush := return

end Sink
end MethodLines
