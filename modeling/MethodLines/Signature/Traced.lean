import MethodLines.Log
import MethodLines.Signature.Reading
import MethodLines.Text.Quoted

/-! Reading and checking of signatures with a record of every line that is read
successfully. -/
namespace MethodLines.Signature

open Text

def readRecord (line : Text) (s : Signature) : Log.Record where
  level := .trace
  origin := .reading
  message :=
    "parsed '" ++ line ++ "': modifier=" ++
      (match s.modifier with | none => "None" | some m => "Some(" ++ quoted m ++ ")") ++
      " return=" ++ s.returnType ++ " name=" ++ s.name ++ " arity=" ++ decimal s.arity

def readTraced (line : Text) : Logged (Except Rejection Signature) :=
  match read line with
  | .ok s => ⟨[readRecord line s], .ok s⟩
  | .error e => ⟨[], .error e⟩

/-- Checking reads the line of the record, and leaves the record of that. -/
def checkTraced (s : Signature) : Logged (Except Rejection Signature) :=
  ⟨(readTraced s.render).records, s.check⟩

end MethodLines.Signature
