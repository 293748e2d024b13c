import MethodLines.Proofs.Batch.Tasks
import MethodLines.Proofs.Signature.RoundTrip

/-! What a batch reports, told from the lines alone: every line that is read has its
outcome, under its number among all lines, up to the first failure if the batch stops
there. Whether the lines are read in sequence or as tasks that finish in any order makes
no difference to it. -/
namespace MethodLines.Report

variable {r : Report}

theorem mem_signatures {line : Nat} {s : Signature} :
    (line, s) ∈ r.signatures ↔ ∃ o ∈ r.outcomes, o.line = line ∧ o.result = .ok s := by
  rw [signatures, List.mem_filterMap]
  apply exists_congr
  intro o
  cases result : o.result with
  | ok other => simp [Except.toOption]
  | error e => simp [Except.toOption]

theorem mem_failures {o : Outcome} {e : Rejection} :
    (o, e) ∈ r.failures ↔ o ∈ r.outcomes ∧ o.result = .error e := by
  rw [failures, List.mem_filterMap]
  constructor
  · rintro ⟨other, listed, found⟩
    obtain ⟨d, failed, same⟩ := Option.map_eq_some_iff.mp found
    cases same
    refine ⟨listed, ?_⟩
    cases result : o.result with
    | ok s => simp [rejection?, result] at failed
    | error d => simpa [rejection?, result] using failed
  · rintro ⟨listed, failed⟩
    exact ⟨o, listed, by rw [rejection?, failed]; rfl⟩

end MethodLines.Report

namespace MethodLines.Batch

/-- The outcomes of all lines that are read, in order. The first line has the given
number. -/
def transcriptFrom (rules : InputRules) : Nat → List Text → List Outcome
  | _, [] => []
  | number, line :: lines =>
    if rules.skips line then transcriptFrom rules (number + 1) lines
    else ⟨number, line.trim, Signature.read line.trim⟩ :: transcriptFrom rules (number + 1) lines

def transcript (rules : InputRules) (lines : List Text) : List Outcome :=
  transcriptFrom rules 1 lines

/-- A list of outcomes cut behind its first failure. One without a failure is whole. -/
inductive ThroughFailure : List Outcome → List Outcome → Prop where
  | whole {full : List Outcome} : (∀ o ∈ full, o.failed = false) → ThroughFailure full full
  | cut {before after : List Outcome} {o : Outcome} : (∀ x ∈ before, x.failed = false) →
      o.failed = true → ThroughFailure (before ++ o :: after) (before ++ [o])

/-- The report on outcomes of which those behind the first failure may be left out. -/
def reportOn (failFast : Bool) (full : List Outcome) : Report :=
  let outcomes := if failFast then throughFirstFailure full else full
  ⟨outcomes, outcomes.length < full.length⟩

variable {rules : InputRules} {lines : List Text} {number : Nat} {o : Outcome}

theorem reportOn_false (full : List Outcome) : reportOn false full = ⟨full, false⟩ := by
  simp [reportOn]

theorem mem_transcriptFrom : o ∈ transcriptFrom rules number lines ↔
    ∃ i line, lines[i]? = some line ∧ rules.skips line = false ∧
      o = ⟨number + i, line.trim, Signature.read line.trim⟩ := by
  induction lines generalizing number with
  | nil => simp [transcriptFrom]
  | cons first lines ih =>
    have places : (∃ i line, (first :: lines)[i]? = some line ∧ rules.skips line = false ∧
        o = ⟨number + i, line.trim, Signature.read line.trim⟩) ↔
        (rules.skips first = false ∧ o = ⟨number, first.trim, Signature.read first.trim⟩) ∨
          o ∈ transcriptFrom rules (number + 1) lines := by
      rw [ih]
      constructor
      · rintro ⟨i, line, found, read, rfl⟩
        cases i with
        | zero =>
          cases found
          exact Or.inl ⟨read, rfl⟩
        | succ i => exact Or.inr ⟨i, line, found, read, by rw [Nat.add_right_comm]; rfl⟩
      · rintro (⟨read, rfl⟩ | ⟨i, line, found, read, rfl⟩)
        · exact ⟨0, first, rfl, read, rfl⟩
        · exact ⟨i + 1, line, found, read, by rw [Nat.add_right_comm]; rfl⟩
    rw [places, transcriptFrom]
    cases rules.skips first with
    | true => simp
    | false => simp

theorem transcriptFrom_ascending (rules : InputRules) (number : Nat) (lines : List Text) :
    (transcriptFrom rules number lines).Pairwise fun a b => a.line < b.line := by
  induction lines generalizing number with
  | nil => exact .nil
  | cons first lines ih =>
    rw [transcriptFrom]
    split
    · exact ih (number + 1)
    · refine .cons ?_ (ih (number + 1))
      intro o member
      obtain ⟨i, line, _, _, rfl⟩ := mem_transcriptFrom.mp member
      show number < number + 1 + i
      omega

theorem throughFailure_throughFirstFailure (full : List Outcome) :
    ThroughFailure full (throughFirstFailure full) := by
  induction full with
  | nil => exact .whole (by simp)
  | cons first rest ih =>
    rw [throughFirstFailure]
    cases failed : first.failed with
    | true => exact @ThroughFailure.cut [] rest first (by simp) failed
    | false =>
      rw [if_neg (by simp)]
      generalize throughFirstFailure rest = kept at ih
      cases ih with
      | whole passed => exact .whole (List.forall_mem_cons.mpr ⟨failed, passed⟩)
      | @cut before after o passed stopped =>
        exact @ThroughFailure.cut (first :: before) after o
          (List.forall_mem_cons.mpr ⟨failed, passed⟩) stopped

/-- Only the last outcome of a list that is cut can be a failure. -/
theorem ThroughFailure.passed_before_last {full kept : List Outcome}
    (through : ThroughFailure full kept) : ∀ o ∈ kept.dropLast, o.failed = false := by
  intro o member
  cases through with
  | whole passed => exact passed o (List.dropLast_subset _ member)
  | cut passed _ =>
    rw [List.dropLast_concat] at member
    exact passed o member

theorem ThroughFailure.isPrefix {full kept : List Outcome} (through : ThroughFailure full kept) :
    kept <+: full := by
  cases through with
  | whole _ => exact List.prefix_rfl
  | @cut before after o _ _ => exact ⟨after, by simp⟩

/-- What is read off a line, and where it is put. -/
def outcomeOf (line : Nat × Text) : Outcome := ⟨line.1, line.2, Signature.read line.2⟩

theorem readLine_value (number : Nat) (source : Text) :
    (readLine number source).value = outcomeOf (number, source) := by
  rw [readLine, Signature.readTraced, outcomeOf]
  cases Signature.read source with
  | ok s => rfl
  | error e => rfl

theorem map_candidates (rules : InputRules) (lines : List Text) :
    (candidates rules lines).map outcomeOf = transcript rules lines := by
  unfold candidates transcript
  generalize 1 = number
  induction lines generalizing number with
  | nil => rfl
  | cons first lines ih =>
    rw [List.zipIdx_cons, transcriptFrom, ← ih (number + 1)]
    cases skipped : rules.skips first with
    | true => rw [List.filter_cons_of_neg (by simp [skipped]), if_pos rfl]
    | false =>
      rw [List.filter_cons_of_pos (by simp [skipped]), if_neg (by simp)]
      rfl

theorem length_candidates (rules : InputRules) (lines : List Text) :
    (candidates rules lines).length = (transcript rules lines).length := by
  rw [← map_candidates, List.length_map]

/-- One step: a line is read, and is the last one if the batch stops at its failure. -/
theorem inSequence_cons (failFast : Bool) (line : Nat × Text) (lines : List (Nat × Text)) :
    inSequence failFast (line :: lines) =
      if failFast && (outcomeOf line).failed then
        ⟨(readLine line.1 line.2).records, [outcomeOf line]⟩
      else ⟨(readLine line.1 line.2).records ++ (inSequence failFast lines).records,
        outcomeOf line :: (inSequence failFast lines).value⟩ := by
  obtain ⟨number, source⟩ := line
  rw [inSequence, ← readLine_value]
  cases stop : failFast && (readLine number source).value.failed with
  | true => simp [bind, pure, stop]
  | false => simp [bind, Functor.map, stop]

/-- The run: reading in sequence stops behind the first failure, if it stops at all. -/
theorem inSequence_value (failFast : Bool) (lines : List (Nat × Text)) :
    (inSequence failFast lines).value = (reportOn failFast (lines.map outcomeOf)).outcomes := by
  induction lines with
  | nil => cases failFast <;> rfl
  | cons line lines ih =>
    have step : (inSequence failFast (line :: lines)).value =
        if failFast && (outcomeOf line).failed then [outcomeOf line]
        else outcomeOf line :: (inSequence failFast lines).value := by
      rw [inSequence_cons]
      split <;> rfl
    rw [step, ih]
    cases failFast with
    | false => rfl
    | true => rfl

/-- The outcomes of tasks are in the order of the lines, and are cut only when all tasks
have finished. -/
theorem inParallel_value {order : List Nat} (failFast : Bool) {lines : List (Nat × Text)}
    (complete : order.Perm (List.range lines.length)) :
    (inParallel order failFast lines).value =
      (reportOn failFast (lines.map outcomeOf)).outcomes := by
  have sized : order.Perm
      (List.range (lines.map fun line => readLine line.1 line.2).toArray.size) := by
    simpa using complete
  have values : (lines.map fun line => readLine line.1 line.2).toArray.toList.map Logged.value =
      lines.map outcomeOf := by
    rw [List.map_map]
    exact List.map_congr_left fun line _ => readLine_value line.1 line.2
  have outcomes := (filterMap_runTasks_value sized).trans values
  show (if failFast then throughFirstFailure _ else _) = _
  rw [outcomes]
  rfl

/-- What is reported, whichever way the batch runs. -/
theorem runLines_value (schedule : Nat → List Nat) (input : InputRules) (rules : BatchRules)
    (lines : List Text)
    (complete : (schedule (candidates input lines).length).Perm
      (List.range (candidates input lines).length)) :
    (runLines schedule input rules lines).value =
      reportOn rules.failFast (transcript input lines) := by
  have report : ∀ outcomes, outcomes = (reportOn rules.failFast (transcript input lines)).outcomes →
      Report.mk outcomes (outcomes.length < (candidates input lines).length) =
        reportOn rules.failFast (transcript input lines) := by
    rintro _ rfl
    rw [length_candidates]
    rfl
  unfold runLines
  split
  · apply report
    rw [← map_candidates]
    exact inParallel_value rules.failFast complete
  · apply report
    rw [← map_candidates]
    exact inSequence_value rules.failFast (candidates input lines)

theorem outcomes_reportOn_isPrefix (failFast : Bool) (full : List Outcome) :
    (reportOn failFast full).outcomes <+: full := by
  cases failFast with
  | false => exact List.prefix_rfl
  | true => exact (throughFailure_throughFirstFailure full).isPrefix

theorem reportOn_passed (failFast : Bool) {full : List Outcome}
    (passed : ∀ o ∈ full, o.failed = false) : reportOn failFast full = ⟨full, false⟩ := by
  have whole : throughFirstFailure full = full := by
    have through := throughFailure_throughFirstFailure full
    generalize throughFirstFailure full = kept at through
    cases through with
    | whole _ => rfl
    | @cut before after o _ failed =>
      have := passed o (by simp)
      rw [failed] at this
      contradiction
  cases failFast with
  | false => simp [reportOn]
  | true => simp [reportOn, whole]

/-- Lines are left out behind a failure only. -/
theorem hasFailures_of_stoppedEarly (failFast : Bool) (full : List Outcome)
    (stopped : (reportOn failFast full).stoppedEarly = true) :
    (reportOn failFast full).hasFailures = true := by
  have shorter : (reportOn failFast full).outcomes.length < full.length :=
    of_decide_eq_true stopped
  cases failFast with
  | false => exact absurd shorter (Nat.lt_irrefl _)
  | true =>
    have through : ThroughFailure full (reportOn true full).outcomes :=
      throughFailure_throughFirstFailure full
    rw [Report.hasFailures, List.any_eq_true]
    generalize (reportOn true full).outcomes = kept at shorter through
    cases through with
    | whole => exact absurd shorter (Nat.lt_irrefl _)
    | @cut before after o _ failed => exact ⟨o, by simp, failed⟩

/-- Every outcome in a report is that of one of the lines. -/
theorem line_of_mem_outcomes {schedule : Nat → List Nat} {input : InputRules} {rules : BatchRules}
    (complete : ∀ n, (schedule n).Perm (List.range n))
    (member : o ∈ (runLines schedule input rules lines).value.outcomes) :
    ∃ i line, lines[i]? = some line ∧ input.skips line = false ∧
      o = ⟨1 + i, line.trim, Signature.read line.trim⟩ := by
  rw [runLines_value schedule input rules lines (complete _)] at member
  exact mem_transcriptFrom.mp ((outcomes_reportOn_isPrefix rules.failFast _).subset member)

theorem source_of_mem_signatures {schedule : Nat → List Nat} {input : InputRules}
    {rules : BatchRules} {s : Signature} (complete : ∀ n, (schedule n).Perm (List.range n))
    (member : (number, s) ∈ (runLines schedule input rules lines).value.signatures) :
    ∃ line ∈ lines, Signature.read line.trim = .ok s := by
  obtain ⟨o, listed, _, accepted⟩ := Report.mem_signatures.mp member
  obtain ⟨i, line, place, _, rfl⟩ := line_of_mem_outcomes complete listed
  exact ⟨line, List.mem_of_getElem? place, accepted⟩

theorem source_of_mem_failures {schedule : Nat → List Nat} {input : InputRules}
    {rules : BatchRules} {e : Rejection} (complete : ∀ n, (schedule n).Perm (List.range n))
    (member : (o, e) ∈ (runLines schedule input rules lines).value.failures) :
    ∃ line ∈ lines, Signature.read line.trim = .error e := by
  obtain ⟨listed, rejected⟩ := Report.mem_failures.mp member
  obtain ⟨i, line, place, _, rfl⟩ := line_of_mem_outcomes complete listed
  exact ⟨line, List.mem_of_getElem? place, rejected⟩

/-- A signature in the report of a batch was read off a line. -/
theorem wellFormed_of_mem_signatures {schedule : Nat → List Nat} {input : InputRules}
    {rules : BatchRules} {s : Signature} (complete : ∀ n, (schedule n).Perm (List.range n))
    (member : (number, s) ∈ (runLines schedule input rules lines).value.signatures) :
    s.WellFormed := by
  obtain ⟨line, _, accepted⟩ := source_of_mem_signatures complete member
  exact Signature.read_wellFormed accepted

/-- A report has an outcome for every line that is read, under the number of the line among
all lines. One that stops at a failure has those up to the first failure, and says whether
there would have been more. -/
theorem runLines_exact (schedule : Nat → List Nat) (input : InputRules) (rules : BatchRules)
    (lines : List Text) (complete : ∀ n, (schedule n).Perm (List.range n)) :
    ∃ (full outcomes : List Outcome) (stopped : Bool),
      (runLines schedule input rules lines).value = ⟨outcomes, stopped⟩ ∧
      full.Pairwise (fun a b => a.line < b.line) ∧
      (∀ o, o ∈ full ↔ ∃ i line, lines[i]? = some line ∧ input.skips line = false ∧
        o = ⟨i + 1, line.trim, Signature.read line.trim⟩) ∧
      (rules.failFast = false → outcomes = full ∧ stopped = false) ∧
      (rules.failFast = true → ThroughFailure full outcomes ∧
        (stopped = true ↔ outcomes.length < full.length) ∧
        ∀ o ∈ outcomes.dropLast, o.failed = false) := by
  refine ⟨transcript input lines, _, _, runLines_value schedule input rules lines (complete _),
    transcriptFrom_ascending input 1 lines, ?_, ?_, ?_⟩
  · intro o
    rw [transcript, mem_transcriptFrom]
    simp only [Nat.add_comm]
  · intro whole
    rw [whole]
    exact ⟨rfl, decide_eq_false (Nat.lt_irrefl _)⟩
  · intro failFast
    rw [failFast]
    have through := throughFailure_throughFirstFailure (transcript input lines)
    exact ⟨through, decide_eq_true_iff, through.passed_before_last⟩

/-- Tasks that finish in reverse order: the line behind the failure is read first, and left
out all the same. -/
theorem runLines_exact_reversed :
    (∀ n, (List.range n).reverse.Perm (List.range n)) ∧
      ∃ (full outcomes : List Outcome) (stopped : Bool),
        (runLines (fun n => (List.range n).reverse) {} ⟨true, true⟩
          ["# a", "int b()", " c", "int d()"]).value = ⟨outcomes, stopped⟩ ∧
        ThroughFailure full outcomes ∧ outcomes.length < full.length ∧
        outcomes.map Outcome.line = [2, 3] := by
  refine ⟨fun n => List.reverse_perm _, ?_⟩
  obtain ⟨full, outcomes, stopped, report, _, _, _, cut⟩ :=
    runLines_exact (fun n => (List.range n).reverse) {} ⟨true, true⟩
      ["# a", "int b()", " c", "int d()"] fun n => List.reverse_perm _
  obtain ⟨through, shorter, _⟩ := cut rfl
  have found : (runLines (fun n => (List.range n).reverse) {} ⟨true, true⟩
      ["# a", "int b()", " c", "int d()"]).value.outcomes.map Outcome.line = [2, 3] := by rfl
  have early : (runLines (fun n => (List.range n).reverse) {} ⟨true, true⟩
      ["# a", "int b()", " c", "int d()"]).value.stoppedEarly = true := by rfl
  rw [report] at found early
  exact ⟨full, outcomes, stopped, report, through, shorter.mp early, found⟩

/-- A parallel batch reports what a sequential one does, in whatever order its tasks finish.
The one reads every line and leaves outcomes out afterwards; the other does not read on. -/
theorem runLines_order_irrelevant (input : InputRules) (failFast : Bool) (lines : List Text)
    (order : List Nat) (complete : order.Perm (List.range (candidates input lines).length)) :
    (runLines (fun _ => order) input ⟨true, failFast⟩ lines).value =
      (ofLines input ⟨false, failFast⟩ lines).value := by
  have parallel := runLines_value (fun _ => order) input ⟨true, failFast⟩ lines complete
  have sequential := runLines_value List.range input ⟨false, failFast⟩ lines (.refl _)
  exact parallel.trans sequential.symm

theorem runLines_order_irrelevant_rotated :
    [2, 0, 1].Perm (List.range (candidates {} ["int a()", "b", "", "int c()"]).length) ∧
      (runLines (fun _ => [2, 0, 1]) {} ⟨true, true⟩ ["int a()", "b", "", "int c()"]).value =
        (ofLines {} ⟨false, true⟩ ["int a()", "b", "", "int c()"]).value :=
  ⟨by decide, runLines_order_irrelevant {} true ["int a()", "b", "", "int c()"] [2, 0, 1]
    (by decide)⟩

end MethodLines.Batch
