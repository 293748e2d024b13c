import MethodLines.Report
import MethodLines.Settings
import MethodLines.Signature.Traced
import MethodLines.Text.Pieces

/-! Reading many lines at once. Lines keep their numbers when others are left
out. A batch runs in sequence, or as independent tasks that may finish in any
order, each storing what it found in a slot of its own; the report is in line
order either way. -/
namespace MethodLines.Batch

open Log

/-- The lines that are read, trimmed, with their numbers from 1 among all lines. -/
def candidates (rules : InputRules) (lines : List Text) : List (Nat × Text) :=
  ((lines.zipIdx 1).filter fun (line, _) => !rules.skips line).map
    fun (line, number) => (number, line.trim)

/-- Reads one line; a failure leaves a record of its own. -/
def readLine (number : Nat) (source : Text) : Logged Outcome :=
  let reading := Signature.readTraced source
  let complaint : List Record := match reading.value with
    | .ok _ => []
    | .error e => [⟨.debug, .batch, "line " ++ Text.decimal number ++ ": " ++ e.message⟩]
  ⟨reading.records ++ complaint, ⟨number, source, reading.value⟩⟩

/-- Reads line after line; with `failFast` none after the first failure. -/
def inSequence (failFast : Bool) : List (Nat × Text) → Logged (List Outcome)
  | [] => pure []
  | (number, source) :: rest => do
    let outcome ← readLine number source
    if failFast && outcome.failed then return [outcome]
    else (outcome :: ·) <$> inSequence failFast rest

/-- Lets the tasks finish in the given order. A task that finishes stores its
value in the slot of its own index. -/
def runTasks {α : Type} (tasks : Array (Logged α)) :
    List Nat → Array (Option α) → Logged (Array (Option α))
  | [], slots => pure slots
  | i :: order, slots =>
    match tasks[i]? with
    | none => runTasks tasks order slots
    | some task => do
      let value ← task
      runTasks tasks order (slots.setIfInBounds i (some value))

/-- The outcomes up to and including the first failure. -/
def throughFirstFailure : List Outcome → List Outcome
  | [] => []
  | outcome :: rest => if outcome.failed then [outcome] else outcome :: throughFirstFailure rest

/-- Reads the lines as independent tasks that finish in the given order. -/
def inParallel (order : List Nat) (failFast : Bool) (lines : List (Nat × Text)) :
    Logged (List Outcome) := do
  let tasks := (lines.map fun (number, source) => readLine number source).toArray
  let slots ← runTasks tasks order (Array.replicate tasks.size none)
  let outcomes := slots.toList.filterMap id
  return if failFast then throughFirstFailure outcomes else outcomes

def startRecord (rules : BatchRules) (count : Nat) : Record where
  level := .debug
  origin := .batch
  message :=
    "Parsing " ++ Text.decimal count ++ " signature lines (" ++
      (if rules.parallel then ("parallel" : Text) else "sequential") ++ ")"

/-- The batch over some lines. A parallel one lets its tasks finish in the order
that `schedule` gives for their number. -/
def runLines (schedule : Nat → List Nat) (input : InputRules) (rules : BatchRules)
    (lines : List Text) : Logged Report := do
  let lines := candidates input lines
  Logged.emit (startRecord rules lines.length)
  let outcomes ←
    if rules.parallel then inParallel (schedule lines.length) rules.failFast lines
    else inSequence rules.failFast lines
  return ⟨outcomes, outcomes.length < lines.length⟩

/-- The batch over some lines, with tasks that finish in line order. -/
def ofLines (input : InputRules) (rules : BatchRules) (lines : List Text) : Logged Report :=
  runLines List.range input rules lines

def ofText (input : InputRules) (rules : BatchRules) (text : Text) : Logged Report :=
  ofLines input rules text.lines

end MethodLines.Batch
