import MethodLines.Ansi
import MethodLines.Report
import MethodLines.Sink

/-! A report for the terminal: a line for each outcome and a summary, in colour
or plain. -/
namespace MethodLines.Report

open Ansi

def paintedArgument (color : Bool) (a : Argument) : Text :=
  paint color .cyan a.type ++ " " ++ a.name

def paintedSignature (color : Bool) (s : Signature) : Text :=
  (match s.modifier with | none => [] | some m => paint color .magenta m ++ " ") ++
    paint color .cyan s.returnType ++ " " ++ paint color .bold s.name ++ "(" ++
    (", " : Text).intercalate (s.arguments.map (paintedArgument color)) ++ ")"

def paintedRejection (color : Bool) (e : Rejection) : Text :=
  paint color .boldRed ("[" ++ e.code ++ "]") ++ " " ++ paint color .red e.message

/-- The line of an outcome. The number is filled up inside its style. -/
def outcomeLine (color : Bool) (o : Outcome) : Text :=
  paint color .dimmed ((Text.decimal o.line).padLeft 4) ++ "  " ++
    (match o.result with
      | .ok s => paintedSignature color s
      | .error e => paintedRejection color e) ++ "\n"

def summary (r : Report) : Text :=
  Text.decimal r.signatures.length ++ " parsed, " ++ Text.decimal r.failures.length ++ " failed"

def terminal (color : Bool) (r : Report) : List Text :=
  r.outcomes.map (outcomeLine color) ++
    [paint color (if r.hasFailures then .yellow else .green) r.summary ++ "\n"] ++
    (if r.stoppedEarly then [paint color .yellow "stopped at the first error" ++ "\n"] else [])

def writeTerminal {m : Type → Type} [Monad m] (color : Bool) (r : Report) (out : Outlet m) :
    ExceptT FileFault m Unit := do
  for o in r.outcomes do
    out.put (outcomeLine color o)
  if r.hasFailures then
    out.put (paint color .yellow r.summary ++ "\n")
  else
    out.put (paint color .green r.summary ++ "\n")
  if r.stoppedEarly then
    out.put (paint color .yellow "stopped at the first error" ++ "\n")
  out.flush

end MethodLines.Report
