import MethodLines.Command.Failure
import MethodLines.Host
import MethodLines.Path
import MethodLines.Settings.Document

/-! The settings file: where it is looked for, how it is loaded, and how it is set
up. The nearest file that can be loaded counts; those that cannot are passed
over with a warning. -/
namespace MethodLines.SettingsFile

variable {m : Type → Type} [Monad m] [Host m]

/-- How many folders are searched, from the first one upwards. -/
def searchDepth : Nat := 10

def candidates (start : Text) : List Text :=
  (Path.ancestors searchDepth start).map fun folder => Path.join folder Settings.fileName

inductive Finding where
  | absent
  | unreadable (fault : FileFault)
  | invalid
  | valid (settings : Settings)

/-- What was found where a file was read, or not. -/
def Finding.ofRead : Except FileFault ByteArray → Finding
  | .error .missing => .absent
  | .error fault => .unreadable fault
  | .ok bytes =>
    match Text.ofBytes? bytes with
    | none => .unreadable .notUtf8
    | some text =>
      match Settings.ofText? text with
      | none => .invalid
      | some settings => .valid settings

/-- What is said about a candidate. One that is absent is not worth a word. -/
def Finding.record? (path : Text) : Finding → Option Log.Record
  | .absent => none
  | .unreadable fault =>
    some ⟨.warn, .settings, "Failed to read config file " ++ path ++ ": " ++ fault.message⟩
  | .invalid =>
    some ⟨.warn, .settings, "Failed to parse " ++ Settings.fileName ++ ". Using defaults."⟩
  | .valid _ => some ⟨.debug, .settings, "Loaded config from " ++ path⟩

def Finding.settings? : Finding → Option Settings
  | .valid settings => some settings
  | _ => none

/-- What is said if no candidate could be loaded. -/
def noneFound : Log.Record where
  level := .debug
  origin := .settings
  message :=
    "No config found after checking " ++ Text.decimal searchDepth ++
      " directories. Using default config."

/-- The settings of the first candidate that can be loaded. Those behind it are
not looked at. -/
def firstLoadable : List Text → m (Option Settings)
  | [] => return none
  | path :: rest => do
    let finding := Finding.ofRead (← Host.readFile path)
    if let some record := finding.record? path then Host.log record
    match finding.settings? with
    | some settings => return some settings
    | none => firstLoadable rest

/-- The settings that count in a folder. -/
def loadFrom (start : Text) : m Settings := do
  match ← firstLoadable (candidates start) with
  | some settings => return settings
  | none =>
    Host.log noneFound
    return {}

def load : m Settings := do
  match ← Host.currentFolder with
  | .ok folder => loadFrom folder
  | .error fault =>
    Host.log ⟨.warn, .settings,
      "Failed to get current directory: " ++ fault.message ++ ". Using default config."⟩
    return {}

def write (path content : Text) : m (Except FileFault Unit) := do
  match ← Host.createFile path with
  | .error fault => return .error fault
  | .ok () => Host.appendFile path content.bytes

/-- Sets up a settings file in a folder. One that exists is kept unless `force`
asks to replace it. -/
def setUp (folder : Text) (force : Bool) : m (Except Failure Unit) := do
  let path := Path.join folder Settings.fileName
  if (← Host.fileExists path) && !force then return .error .settingsExist
  match ← write path Settings.initialText with
  | .error fault => return .error (.unwritable path fault)
  | .ok () =>
    Host.log ⟨.info, .setup, "Wrote " ++ path⟩
    let _ ← Host.print ("Created " ++ Settings.fileName ++ " configuration file\n")
    return .ok ()

end MethodLines.SettingsFile
