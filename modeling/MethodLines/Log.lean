import MethodLines.Ansi
import MethodLines.Ansi.Plain

/-! Log records, and computations that yield a value together with the records
they emit, in order of emission. -/
namespace MethodLines.Log

inductive Level where
  | error | warn | info | debug | trace
deriving DecidableEq

namespace Level

/-- Severe levels have a small rank. -/
def rank : Level → Nat
  | .error => 0
  | .warn => 1
  | .info => 2
  | .debug => 3
  | .trace => 4

def label : Level → Text
  | .error => "ERROR"
  | .warn => "WARN"
  | .info => "INFO"
  | .debug => "DEBUG"
  | .trace => "TRACE"

def style : Level → Ansi.Style
  | .error => .boldRed
  | .warn => .yellow
  | .info => .green
  | .debug => .blue
  | .trace => .cyan

/-- What is logged for a number of requests for more detail. -/
def ofVerbosity : Nat → Level
  | 0 => .warn
  | 1 => .info
  | 2 => .debug
  | _ => .trace

end Level

inductive Origin where
  | reading | batch | settings | setup
deriving DecidableEq

def Origin.label : Origin → Text
  | .reading => "sigparse::parser"
  | .batch => "sigparse::batch"
  | .settings => "sigparse::config::loader"
  | .setup => "sigparse::commands::init"

structure Record where
  level : Level
  origin : Origin
  message : Text
deriving DecidableEq

/-- A record as it is written on the error stream, its level filled up inside its
style. Further lines of a message are indented. Without colour nothing in it can
reach a terminal as a command. -/
def Record.entry (color : Bool) (r : Record) : Text :=
  let level := Ansi.paint color r.level.style (r.level.label.padRight 5)
  let t := Ansi.paint color .grey "[" ++ level ++ " " ++ r.origin.label ++
    Ansi.paint color .grey "]" ++ " " ++ r.message.substitute '\n' "\n    " ++ "\n"
  if color then t else Ansi.plain t

abbrev Threshold := Option Level

def Threshold.admits (threshold : Threshold) (r : Record) : Bool :=
  match threshold with
  | none => false
  | some level => r.level.rank ≤ level.rank

/-- The threshold that a name asks for, in either case of its letters. -/
def Threshold.ofName? (name : Text) : Option Threshold :=
  let name := name.map Char.toUpper
  if name = ("OFF" : Text) then some none
  else ([.error, .warn, .info, .debug, .trace].find? fun level => level.label = name).map some

end Log

/-- A value together with the records emitted on the way to it. -/
structure Logged (α : Type) where
  records : List Log.Record
  value : α

namespace Logged

instance : Monad Logged where
  pure a := ⟨[], a⟩
  map f x := ⟨x.records, f x.value⟩
  bind x f := ⟨x.records ++ (f x.value).records, (f x.value).value⟩

def emit (r : Log.Record) : Logged Unit := ⟨[r], ()⟩

end Logged
end MethodLines
