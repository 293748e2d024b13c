import MethodLines.Batch
import MethodLines.Command.Failure
import MethodLines.Host
import MethodLines.Options
import MethodLines.Path
import MethodLines.Report.Writing

/-! Reporting on signatures: they are collected from the options, a file or the
standard input, read, and the report is written to a file or the standard
output. -/
namespace MethodLines.Reporting

variable {m : Type → Type} [Monad m] [Host m]

/-- Emits the records of a computation and goes on with its value. -/
def emitting {α : Type} (x : Logged α) : m α := do
  x.records.forM Host.log
  return x.value

def decode (bytes : Except FileFault ByteArray) : Except FileFault Text := do
  match Text.ofBytes? (← bytes) with
  | some text => return text
  | none => throw .notUtf8

def readInput : m (Except Failure Text) := do
  return (decode (← Host.readInput)).mapError .unreadableInput

def readText (path : Text) : m (Except Failure Text) := do
  return (decode (← Host.readFile path)).mapError (.unreadable path)

/-- The text at a path; a single dash is the standard input. -/
def readSource (path : Text) : m (Except Failure Text) :=
  if Path.same path ['-'] then readInput else readText path

/-- The report on what the options ask for. Signatures given with them are never
left out and win over any input. -/
def collect (o : Options) (s : Settings) : m (Except Failure Report) := do
  if !o.signatures.isEmpty then
    return .ok (← emitting (Batch.ofLines .verbatim s.batch o.signatures))
  let text ← match o.input with
    | some path => readSource path
    | none => readInput
  match text with
  | .error failure => return .error failure
  | .ok text => return .ok (← emitting (Batch.ofText s.input s.batch text))

/-- The standard output, which gets each text at once. -/
def standardOutput : Outlet m where
  put t := ExceptT.mk (Host.print t)
  flush := return

/-- A file behind a buffer. -/
def bufferedFile (path : Text) : Outlet (StateT ByteArray m) where
  put t := ExceptT.mk fun held => return (.ok (), held ++ t.bytes)
  flush := ExceptT.mk fun held => return (← Host.appendFile path held, .empty)

/-- Writes a report to the standard output, or to a file that is replaced. -/
def deliver (output : Option Text) (format : Format) (color : Bool) (r : Report) :
    m (Except Failure Unit) := do
  match output with
  | none => return (← (r.write format color standardOutput).run).mapError .undelivered
  | some path =>
    match ← Host.createFile path with
    | .error fault => return .error (.uncreatable path fault)
    | .ok () =>
      let (result, _) ← (r.write format color (bufferedFile path)).run.run .empty
      return result.mapError .undelivered

def verdict (r : Report) : Except Failure Unit :=
  if r.hasFailures then .error (.rejected r.failures.length r.outcomes.length) else .ok ()

/-- Collects, writes the report, and fails if any signature was rejected. `color`
is for settings that leave it open. -/
def run (color : Bool) (o : Options) (s : Settings) : m (Except Failure Unit) := do
  let s := o.override s
  match ← collect o s with
  | .error failure => return .error failure
  | .ok report =>
    let format := s.output.format.getD .terminal
    match ← deliver o.output format (s.output.color.getD color) report with
    | .error failure => return .error failure
    | .ok () => return verdict report

end MethodLines.Reporting
