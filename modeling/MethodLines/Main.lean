import MethodLines.Program

/-! The program on a live system: commands act on its files and streams, and
records that are let through go to the error stream at once. -/
namespace MethodLines

/-- The fault that the system gives a number to, in its own words if need be. -/
def FileFault.ofCode (code : UInt32) (words : String) : FileFault :=
  if code = 2 then .missing
  else if code = 20 then .notFolder
  else if code = 21 then .isFolder
  else if code = 28 then .noSpace
  else if code = 36 then .nameTooLong
  else .other (words.toList ++ " (os error " ++ Text.decimal code.toNat ++ ")")

def FileFault.ofError : IO.Error → FileFault
  | .alreadyExists _ code words | .invalidArgument _ code words | .permissionDenied _ code words
  | .resourceExhausted _ code words | .inappropriateType _ code words
  | .noSuchThing _ code words | .interrupted _ code words | .noFileOrDirectory _ code words
  | .otherError code words | .resourceBusy code words | .resourceVanished code words
  | .unsupportedOperation code words | .hardwareFault code words
  | .unsatisfiedConstraints code words | .illegalOperation code words
  | .protocolError code words | .timeExpired code words => .ofCode code words
  | .unexpectedEof => .other "unexpected end of file"
  | .userError words => .other words.toList

structure LogRules where
  threshold : Log.Threshold
  color : Bool

/-- Actions on the system. -/
abbrev Live := ReaderT LogRules IO

namespace Live

/-- An action whose errors are faults. -/
def attempt {α : Type} (action : IO α) : Live (Except FileFault α) := do
  return (← action.toBaseIO).mapError .ofError

/-- An action on a path. None holds a NUL character. -/
def attemptAt {α : Type} (path : Text) (action : String → IO α) : Live (Except FileFault α) :=
  if '\x00' ∈ path then return .error .nulInPath else attempt (action (String.ofList path))

/-- All that a stream still has to give. -/
partial def readAll (stream : IO.FS.Stream) (held : ByteArray) : IO ByteArray := do
  let more ← stream.read 65536
  if more.isEmpty then return held else readAll stream (held ++ more)

def write (stream : IO.FS.Stream) (t : Text) : IO Unit := do
  stream.write t.bytes
  stream.flush

instance : Host Live where
  readFile path := attemptAt path fun p => IO.FS.withFile p .read fun file => file.readBinToEnd
  fileExists path := do
    match ← attemptAt path fun p => (System.mkFilePath [p]).pathExists with
    | .ok found => return found
    | .error _ => return false
  createFile path := attemptAt path fun p => IO.FS.writeBinFile p .empty
  appendFile path bytes := attemptAt path fun p => IO.FS.withFile p .append fun file => do
    file.write bytes
    file.flush
  readInput := attempt do readAll (← IO.getStdin) .empty
  print t := attempt do write (← IO.getStdout) t
  log r := do
    let rules ← read
    if rules.threshold.admits r then write (← IO.getStderr) (r.entry rules.color)
  /- A current folder that has no path any more was removed. -/
  currentFolder := do
    return (← attempt IO.currentDir).map (·.toString.toList) |>.mapError fun _ => .missing

end Live

namespace Program

/-- What the system says about where and how the program runs. -/
def Environment.current : IO Environment := do
  let value? (name : String) : IO (Option Text) := return (← IO.getEnv name).map String.toList
  return {
    forceColor := ← value? "CLICOLOR_FORCE"
    noColor := ← value? "NO_COLOR"
    terminalColor := ← value? "CLICOLOR"
    terminal := ← (← IO.getStdout).isTty
    logTerminal := (← (← IO.getStderr).isTty) && (← value? "TERM").any (· ≠ ("dumb" : Text))
    logLevel := ← value? "RUST_LOG"
    logStyle := ← value? "RUST_LOG_STYLE" }

def explain (e : UsageError) : IO UInt32 := do
  let stream ← if e.isAnswer then IO.getStdout else IO.getStderr
  Live.write stream (explanation e)
  return (usageExitCode e).toUInt32

end Program
end MethodLines

open MethodLines in
/-- The program: its exit code is zero if all went well, two if its words make no
sense, and one otherwise. -/
def main (args : List String) : IO UInt32 := do
  match CommandLine.read (args.map String.toList) with
  | .error e => Program.explain e
  | .ok invocation =>
    let environment ← Program.Environment.current
    let execution : Live (Except Failure Unit) :=
      Program.execute environment.color invocation.command
    let threshold := environment.threshold invocation.verbosity
    match ← execution.run ⟨threshold, environment.logColor⟩ with
    | .ok () => return 0
    | .error failure =>
      Live.write (← IO.getStderr) failure.notice
      return 1
