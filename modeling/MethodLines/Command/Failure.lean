import MethodLines.FileTree

/-! Why a command fails, and what it says then. -/
namespace MethodLines

inductive Failure where
  | settingsExist
  | unreadable (path : Text) (fault : FileFault)
  | unreadableInput (fault : FileFault)
  | unwritable (path : Text) (fault : FileFault)
  | uncreatable (path : Text) (fault : FileFault)
  /-- A report could not be delivered in full. -/
  | undelivered (fault : FileFault)
  /-- All was done, but some signatures were rejected. -/
  | rejected (failed total : Nat)
deriving DecidableEq

namespace Failure

def headline : Failure → Text
  | .settingsExist => "Configuration file already exists. Use --force to overwrite."
  | .unreadable path _ => "Failed to read " ++ path
  | .unreadableInput _ => "Failed to read signatures from stdin"
  | .unwritable path _ => "Failed to write " ++ path
  | .uncreatable path _ => "Failed to create output file " ++ path
  | .undelivered fault => fault.message
  | .rejected failed total =>
    Text.decimal failed ++ " of " ++ Text.decimal total ++ " signature(s) failed to parse"

/-- What is behind the failure, if the headline does not say it. -/
def cause? : Failure → Option FileFault
  | .unreadable _ fault | .unreadableInput fault | .unwritable _ fault
  | .uncreatable _ fault => some fault
  | .settingsExist | .undelivered _ | .rejected .. => none

def message (f : Failure) : Text :=
  match f.cause? with
  | none => f.headline
  | some fault => f.headline ++ ": " ++ fault.message

/-- The failure as it stands on the error stream. -/
def notice (f : Failure) : Text :=
  "Error: " ++ f.headline ++
    (match f.cause? with
      | none => []
      | some fault => "\n\nCaused by:\n    " ++ fault.message) ++ "\n"

end Failure
end MethodLines
