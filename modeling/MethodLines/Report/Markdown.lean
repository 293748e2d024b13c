import MethodLines.Report
import MethodLines.Sink

/-! A report in Markdown: a table of the signatures, and a list of the failures
if there are any. -/
namespace MethodLines.Report

/-- A cell ends at any pipe that no backslash stands before. -/
def cell (t : Text) : Text := t.substitute '|' "\\|"

def codeCell (t : Text) : Text := "\x60" ++ cell t ++ "\x60"

def cells (line : Nat) (s : Signature) : List Text :=
  [Text.decimal line,
   cell (s.modifier.getD "-"),
   codeCell s.returnType,
   codeCell s.name,
   if s.arguments.isEmpty then "-"
   else (", " : Text).intercalate (s.arguments.map fun a => codeCell a.render)]

def row (cells : List Text) : Text :=
  "| " ++ (" | " : Text).intercalate cells ++ " |\n"

def tableHead : List Text :=
  ["## Signatures\n", "\n", "| Line | Modifier | Return | Name | Arguments |\n",
   "|------|----------|--------|------|-----------|\n"]

def failureItem (line : Nat) (e : Rejection) : Text :=
  "- line " ++ Text.decimal line ++ " \x60" ++ e.code ++ "\x60: " ++ e.message ++ "\n"

def failureHead : List Text := ["## Errors\n", "\n"]

def stopNote : List Text := ["\n", "_Stopped at the first error._\n"]

def blankLine : List Text := ["\n"]

/-- The list of failures; that lines were left out is only said below one. -/
def failureSection (r : Report) : List Text :=
  if r.hasFailures then
    failureHead ++ r.failures.map (fun (o, e) => failureItem o.line e) ++
      (if r.stoppedEarly then stopNote else []) ++ blankLine
  else []

def markdown (r : Report) : List Text :=
  tableHead ++ r.signatures.map (fun (line, s) => row (cells line s)) ++ blankLine ++
    r.failureSection

section

variable {m : Type → Type} [Monad m]

def writeSignatures (r : Report) (out : Outlet m) : ExceptT FileFault m Unit := do
  out.put "## Signatures\n"
  out.put "\n"
  out.put "| Line | Modifier | Return | Name | Arguments |\n"
  out.put "|------|----------|--------|------|-----------|\n"
  for (line, s) in r.signatures do
    out.put (row (cells line s))
  out.put "\n"

def writeFailures (r : Report) (out : Outlet m) : ExceptT FileFault m Unit := do
  if !r.hasFailures then return
  out.put "## Errors\n"
  out.put "\n"
  for (o, e) in r.failures do
    out.put (failureItem o.line e)
  if r.stoppedEarly then
    out.put "\n"
    out.put "_Stopped at the first error._\n"
  out.put "\n"

def writeMarkdown (r : Report) (out : Outlet m) : ExceptT FileFault m Unit := do
  r.writeSignatures out
  r.writeFailures out
  out.flush

end

end MethodLines.Report
