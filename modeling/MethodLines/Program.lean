import MethodLines.Command.Reporting
import MethodLines.Command.SettingsFile
import MethodLines.CommandLine

/-! The program as a whole: from the words of a command line and what the
environment says to an exit code and the text on the error stream. -/
namespace MethodLines.Program

structure Environment where
  /-- Anything but a zero asks for colours wherever settings leave it open. -/
  forceColor : Option Text := none
  /-- Any value forbids colours that are not forced. -/
  noColor : Option Text := none
  /-- A zero forbids colours on a terminal. -/
  terminalColor : Option Text := none
  /-- Whether the standard output is a terminal. -/
  terminal : Bool := false
  /-- Whether the error stream is a terminal that shows colours. -/
  logTerminal : Bool := false
  /-- The name of a level asks for just that in the log. -/
  logLevel : Option Text := none
  /-- Asks for colours in the log, or forbids them. -/
  logStyle : Option Text := none

/-- Whether a switch that is set has a value other than zero. -/
def isOn (switch : Option Text) (unset : Bool) : Bool :=
  match switch with
  | none => unset
  | some value => value ≠ ['0']

/-- Whether there are colours where settings leave it open. -/
def Environment.color (env : Environment) : Bool :=
  isOn env.forceColor false ||
    (env.noColor.isNone && env.terminal && isOn env.terminalColor true)

def isGiven (switch : Option Text) : Bool := switch.any fun value => !value.isEmpty

/-- Whether log lines have colours. Unlike in reports, a switch without a value does
not count here, and the one that forbids colours wins over the one that forces them. -/
def Environment.logColor (env : Environment) : Bool :=
  if env.logStyle = some ("always" : Text) then true
  else if env.logStyle = some ("never" : Text) ∨ isGiven env.noColor then false
  else isGiven env.forceColor || (env.logTerminal && isOn env.terminalColor true)

/-- What is logged: the level that the environment names, or else the one that the
command line asks for. -/
def Environment.threshold (env : Environment) (verbosity : Nat) : Log.Threshold :=
  ((env.logLevel.bind Log.Threshold.ofName?)).getD (some (.ofVerbosity verbosity))

def versionText : Text := "sigparse 0.1.0\n"

def usageText : Text :=
  [("Usage: sigparse [-v]... parse [OPTIONS] [SIGNATURES]..." : Text),
    "       sigparse [-v]... init [--force]", "",
    "Options of parse:",
    "  -i, --input <FILE>     one signature per line, - for the standard input",
    "  -f, --format <FORMAT>  json, markdown or terminal",
    "  -o, --output <FILE>    where the report goes",
    "      --fail-fast        stop at the first signature that fails to parse",
    "      --no-parallel      parse lines sequentially",
    "      --plain            no colours"].flatMap fun line => line ++ ['\n']

def explanation : UsageError → Text
  | .version => versionText
  | _ => usageText

def usageExitCode (e : UsageError) : Nat := if e.isAnswer then 0 else 2

section

variable {m : Type → Type} [Monad m] [Host m]

/-- Runs a command. Settings are only loaded for one that needs them. -/
def execute (color : Bool) : Command → m (Except Failure Unit)
  | .parse options => do Reporting.run color options (← SettingsFile.load)
  | .setUp force => SettingsFile.setUp "." force

end

/-- What is left of a run in a world: how it ended, and the world. -/
structure Ending where
  exitCode : Nat
  /-- The text on the error stream, unless it only explains usage. -/
  errors : Option Text
  world : World

/-- A command that failed says so behind its log records. -/
def Ending.ofExecution (color : Bool) (threshold : Log.Threshold) (result : Except Failure Unit)
    (w : World) : Ending :=
  let log : Text := (w.records.filter threshold.admits).flatMap (Log.Record.entry color)
  match result with
  | .ok () => ⟨0, some log, w⟩
  | .error failure => ⟨1, some (log ++ failure.notice), w⟩

def run (env : Environment) (words : List Text) (w : World) : Ending :=
  match CommandLine.read words with
  | .error e =>
    if e.isAnswer then ⟨usageExitCode e, some [], { w with output := w.output ++ explanation e }⟩
    else ⟨usageExitCode e, none, w⟩
  | .ok invocation =>
    let execution : StateM World (Except Failure Unit) := execute env.color invocation.command
    let (result, w) := execution w
    .ofExecution env.logColor (env.threshold invocation.verbosity) result w

end MethodLines.Program
