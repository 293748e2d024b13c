import MethodLines.Options

/-! The command line: words are read from left to right. A word before the
command can only ask for more detail, for help or for the version; behind it
stand the command's own options and signatures. A value that follows its option
as a word of its own is looked at only when the next option or signature is, so
that an unknown word behind it is reported first. -/
namespace MethodLines

/-- Options without a value. -/
inductive Switch where
  | verbose | help | version | force | failFast | sequential | plain
deriving DecidableEq

/-- Options with a value. -/
inductive Setting where
  | input | format | output
deriving DecidableEq

inductive Command where
  | parse (options : Options)
  | setUp (force : Bool)
deriving DecidableEq

structure Invocation where
  verbosity : Nat
  command : Command
deriving DecidableEq

/-- Why words are no invocation. Asking for help or the version is none either. -/
inductive UsageError where
  | conflict
  | unknownArgument
  | invalidValue
  | tooManyValues
  | missingCommand
  | unknownCommand
  | help
  | noArguments
  | version
deriving DecidableEq

/-- Whether what was asked for is an answer in itself, and no misuse. -/
def UsageError.isAnswer : UsageError → Bool
  | .help | .version => true
  | _ => false

namespace CommandLine

/-- The options that are known at some place of the command line. -/
structure Vocabulary where
  switches : List (Switch × Option Text × Option Char)
  settings : List (Setting × Text × Char) := []
  /-- Whether words that are no options are signatures. -/
  positionals : Bool := false

inductive Name where
  | switch (s : Switch)
  | setting (s : Setting)

namespace Vocabulary

def verbose : Switch × Option Text × Option Char := (.verbose, some "verbose", some 'v')

def help : Switch × Option Text × Option Char := (.help, some "help", some 'h')

def top : Vocabulary where
  switches := [verbose, help, (.version, some "version", some 'V')]

def parse : Vocabulary where
  switches :=
    [verbose, help, (.failFast, some "fail-fast", none), (.sequential, some "no-parallel", none),
     (.plain, some "plain", none)]
  settings := [(.input, "input", 'i'), (.format, "format", 'f'), (.output, "output", 'o')]
  positionals := true

def setUp : Vocabulary where
  switches := [verbose, help, (.force, some "force", some 'f')]

def long? (v : Vocabulary) (name : Text) : Option Name :=
  match v.switches.find? fun s => s.2.1 = some name with
  | some s => some (.switch s.1)
  | none => (v.settings.find? fun s => s.2.1 = name).map fun s => .setting s.1

def short? (v : Vocabulary) (letter : Char) : Option Name :=
  match v.switches.find? fun s => s.2.2 = some letter with
  | some s => some (.switch s.1)
  | none => (v.settings.find? fun s => s.2.2 = letter).map fun s => .setting s.1

end Vocabulary

/-- The form of a word. -/
inductive Word where
  /-- Two dashes: all that follows is positional. -/
  | separator
  /-- A long option, with the value behind an equals sign if there is one. -/
  | long (name : Text) (value : Option Text)
  /-- Short options in one word. -/
  | short (letters : Text)
  | plain (t : Text)

def Word.ofText : Text → Word
  | ['-', '-'] => .separator
  | '-' :: '-' :: t =>
    .long (t.takeWhile (· ≠ '=')) (if '=' ∈ t then some (t.dropWhile (· ≠ '=')).tail else none)
  | '-' :: c :: t => .short (c :: t)
  | t => .plain t

/-- What has been read so far. -/
structure State where
  verbosity : Nat := 0
  switches : List Switch := []
  settings : List (Setting × Text) := []
  signatures : List Text := []
  /-- An option whose value has not been looked at, or has not come yet. -/
  pending : Option (Setting × Option Text) := none

abbrev Parsed := Except UsageError

/-- More detail can be asked for so often. -/
def verbosityLimit : Nat := 255

/-- Whether a value is one that an option takes. -/
def isValid : Setting → Text → Bool
  | .format, value => (Format.ofName? value).isSome
  | .input, value | .output, value => !value.isEmpty

namespace State

/-- Looks at the pending value. Each option can be given once. -/
def settle (st : State) : Parsed State :=
  match st.pending with
  | none => .ok st
  | some (_, none) => .error .invalidValue
  | some (setting, some value) =>
    if (st.settings.lookup setting).isSome then .error .conflict
    else if isValid setting value then
      .ok { st with settings := st.settings ++ [(setting, value)], pending := none }
    else .error .invalidValue

def switch (st : State) (s : Switch) : Parsed State := do
  let st ← st.settle
  match s with
  | .verbose => return { st with verbosity := min (st.verbosity + 1) verbosityLimit }
  | .help => throw .help
  | .version => throw .version
  | s =>
    if s ∈ st.switches then throw .conflict
    else return { st with switches := s :: st.switches }

def attach (st : State) (setting : Setting) (value : Text) : Parsed State := do
  settle { ← st.settle with pending := some (setting, some value) }

def await (st : State) (setting : Setting) : Parsed State := do
  return { ← st.settle with pending := some (setting, none) }

def signature (st : State) (t : Text) : Parsed State := do
  let st ← st.settle
  return { st with signatures := st.signatures ++ [t] }

def long (v : Vocabulary) (st : State) (name : Text) (value : Option Text) : Parsed State :=
  match v.long? name, value with
  | none, _ => .error .unknownArgument
  | some (.switch _), some _ => .error .tooManyValues
  | some (.switch s), none => st.switch s
  | some (.setting s), some value => st.attach s value
  | some (.setting s), none => st.await s

/-- Short options in one word. Behind one that takes a value the rest of the word
is the value, with or without an equals sign. -/
def short (v : Vocabulary) (st : State) : Text → Parsed State
  | [] => .ok st
  | letter :: rest =>
    match v.short? letter with
    | none => .error .unknownArgument
    | some (.switch s) => do short v (← st.switch s) rest
    | some (.setting s) =>
      match rest with
      | [] => st.await s
      | '=' :: value => st.attach s value
      | value => st.attach s value

end State

/-- Reads the words behind a command. -/
def readWords (v : Vocabulary) : Bool → State → List Text → Parsed State
  | _, st, [] => st.settle
  | trailing, st, word :: rest =>
    let positional (t : Text) : Parsed State := do
      if v.positionals then readWords v trailing (← st.signature t) rest
      else throw .unknownArgument
    if trailing then positional word
    else
      match Word.ofText word with
      | .separator => readWords v true st rest
      | .long name value => do readWords v false (← st.long v name value) rest
      | .short letters => do readWords v false (← st.short v letters) rest
      | .plain t =>
        match st.pending with
        | some (setting, none) =>
          readWords v false { st with pending := some (setting, some t) } rest
        | _ => positional t

/-- The options that were given. Signatures and an input file exclude each other. -/
def State.options (st : State) : Parsed Options :=
  if !st.signatures.isEmpty && (st.settings.lookup .input).isSome then .error .conflict
  else .ok
    { signatures := st.signatures
      input := st.settings.lookup .input
      format := (st.settings.lookup .format).bind Format.ofName?
      output := st.settings.lookup .output
      failFast := .failFast ∈ st.switches
      sequential := .sequential ∈ st.switches
      plain := .plain ∈ st.switches }

/-- The words that name a command. -/
inductive CommandName where
  | parse | setUp | help
deriving DecidableEq

def CommandName.ofText? (t : Text) : Option CommandName :=
  if t = ("parse" : Text) then some .parse
  else if t = ("init" : Text) then some .setUp
  else if t = ("help" : Text) then some .help
  else none

def readCommand (verbosity : Nat) (rest : List Text) : CommandName → Parsed Invocation
  | .parse => do
    let st ← readWords .parse false {} rest
    let options ← st.options
    return ⟨if st.verbosity = 0 then verbosity else st.verbosity, .parse options⟩
  | .setUp => do
    let st ← readWords .setUp false {} rest
    return ⟨if st.verbosity = 0 then verbosity else st.verbosity, .setUp (.force ∈ st.switches)⟩
  | .help =>
    match rest with
    | [] => .error .help
    | [word] => .error (if (CommandName.ofText? word).isSome then .help else .unknownCommand)
    | _ => .error .unknownCommand

/-- Reads words up to the name of a command. -/
def readTop : Bool → State → List Text → Parsed Invocation
  | _, st, [] => .error (if st.verbosity = 0 then .noArguments else .missingCommand)
  | true, _, word :: _ =>
    .error (if (CommandName.ofText? word).isSome then .unknownArgument else .unknownCommand)
  | false, st, word :: rest =>
    match CommandName.ofText? word with
    | some name => readCommand st.verbosity rest name
    | none =>
      match Word.ofText word with
      | .separator => readTop true st rest
      | .long name value => do readTop false (← st.long .top name value) rest
      | .short letters => do readTop false (← st.short .top letters) rest
      | .plain _ => .error .unknownCommand

/-- Reads a command line, without the name of the program. -/
def read (words : List Text) : Parsed Invocation := readTop false {} words

end CommandLine
end MethodLines
