import MethodLines.Report
import MethodLines.Signature.Encoding
import MethodLines.Sink

/-! A report as a JSON document: the signatures, the failures, and whether lines
were left out. -/
namespace MethodLines.Report

def signatureEntry (line : Nat) (s : Signature) : Json :=
  match s.toJson with
  | .object members => .object (("line", .nat line) :: members)
  | v => v

def failureEntry (o : Outcome) (e : Rejection) : Json :=
  .object [
    ("line", .nat o.line),
    ("source", .string o.source),
    ("code", .string e.code),
    ("message", .string e.message)]

def toJson (r : Report) : Json :=
  .object [
    ("signatures", .array (r.signatures.map fun (line, s) => signatureEntry line s)),
    ("errors", .array (r.failures.map fun (o, e) => failureEntry o e)),
    ("stopped_early", .bool r.stoppedEarly)]

def document (r : Report) : List Text := [r.toJson.pretty, "\n"]

def writeDocument {m : Type → Type} [Monad m] (r : Report) (out : Outlet m) :
    ExceptT FileFault m Unit := do
  out.put r.toJson.pretty
  out.put "\n"
  out.flush

end MethodLines.Report
