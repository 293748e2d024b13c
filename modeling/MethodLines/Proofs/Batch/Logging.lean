import MethodLines.Proofs.Batch.Transcript

/-! What a batch that runs in sequence leaves in the log: how many lines it is about to read,
and then a record for each outcome of its report. Lines that are left out leave none, whether
it is for the rules or because an earlier one failed. -/
namespace MethodLines.Batch

open Log Text

def announcement (count : Nat) : Record where
  level := .debug
  origin := .batch
  message := "Parsing " ++ decimal count ++ " signature lines (sequential)"

def shownModifier : Option Text → Text
  | none => "None"
  | some m => "Some(" ++ quoted m ++ ")"

/-- The record of an outcome: the parts of the signature, or the number of the line and the
reason for its rejection. -/
def recordOf (o : Outcome) : Record :=
  match o.result with
  | .ok s => {
      level := .trace
      origin := .reading
      message := "parsed '" ++ o.source ++ "': modifier=" ++ shownModifier s.modifier ++
        " return=" ++ s.returnType ++ " name=" ++ s.name ++ " arity=" ++
        decimal s.arguments.length }
  | .error e => {
      level := .debug
      origin := .batch
      message := "line " ++ decimal o.line ++ ": " ++ e.message }

theorem startRecord_eq (failFast : Bool) (count : Nat) :
    startRecord ⟨false, failFast⟩ count = announcement count := by
  have wording : (" signature lines (sequential)" : Text) =
      " signature lines (" ++ "sequential" ++ ")" := rfl
  rw [announcement, wording, ← List.append_assoc, ← List.append_assoc]
  rfl

theorem length_candidates_eq_countP (rules : InputRules) (lines : List Text) :
    (candidates rules lines).length = lines.countP fun line => !rules.skips line := by
  have numbered : (lines.zipIdx 1).map Prod.fst = lines := List.zipIdx_map_fst 1 lines
  rw [candidates, List.length_map, ← List.countP_eq_length_filter]
  conv_rhs => rw [← numbered, List.countP_map]
  rfl

/-- One step: a line that is read leaves the record of its outcome. -/
theorem readLine_records (number : Nat) (source : Text) :
    (readLine number source).records = [recordOf (outcomeOf (number, source))] := by
  rw [readLine, Signature.readTraced, outcomeOf]
  cases Signature.read source with
  | ok s =>
    obtain ⟨modifier, _, _, _⟩ := s
    cases modifier with
    | none => rfl
    | some m => rfl
  | error e => rfl

/-- The run: as many lines leave a record as have an outcome, in the same order. -/
theorem inSequence_records (failFast : Bool) (lines : List (Nat × Text)) :
    (inSequence failFast lines).records = (inSequence failFast lines).value.map recordOf := by
  induction lines with
  | nil => rfl
  | cons line lines ih =>
    rw [inSequence_cons, readLine_records]
    split
    · rfl
    · exact congrArg (recordOf (outcomeOf line) :: ·) ih

/-- The log of a batch in sequence says how many lines the rules leave to be read, and then
tells every outcome of the report, in order, and nothing else. -/
theorem runLines_records (schedule : Nat → List Nat) (input : InputRules) (failFast : Bool)
    (lines : List Text) :
    let run := runLines schedule input ⟨false, failFast⟩ lines
    run.records = announcement (lines.countP fun line => !input.skips line) ::
      run.value.outcomes.map recordOf := by
  intro run
  have emitted : run.records = [startRecord ⟨false, failFast⟩ (candidates input lines).length] ++
      ((inSequence failFast (candidates input lines)).records ++ []) := rfl
  rw [emitted, List.append_nil, List.singleton_append, startRecord_eq,
    length_candidates_eq_countP, inSequence_records]
  rfl

/-- Three lines are to be read, of which the last is not, and leaves no record. -/
example : (runLines List.range {} ⟨false, true⟩
    ["# a", "int b()", "c", "int d()"]).records.map Record.message =
      ["Parsing 3 signature lines (sequential)",
        "parsed 'int b()': modifier=None return=int name=b arity=0",
        "line 3: missing '(' in signature 'c'"] := by
  decide +kernel

end MethodLines.Batch
