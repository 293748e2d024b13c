import MethodLines.Proofs.Batch.Transcript
import MethodLines.Proofs.Text.LineEnds

/-! Batches over a text that is put together from two. The lines of the second keep their
outcomes, under numbers that count the lines of the first, whether these are read or not. A
batch that stops at a failure never comes to the second if there is one in the first. -/
namespace MethodLines

/-- The outcome of the same line when `n` more lines stand before it. -/
def Outcome.behind (n : Nat) (o : Outcome) : Outcome := { o with line := o.line + n }

namespace Batch

variable {rules : InputRules} {lines : List Text} {front : List Outcome}

theorem transcriptFrom_append (rules : InputRules) (number : Nat) (lines more : List Text) :
    transcriptFrom rules number (lines ++ more) =
      transcriptFrom rules number lines ++ transcriptFrom rules (number + lines.length) more := by
  induction lines generalizing number with
  | nil => rfl
  | cons line lines ih =>
    have place : number + 1 + lines.length = number + (line :: lines).length := by
      rw [List.length_cons]
      omega
    rw [List.cons_append, transcriptFrom, transcriptFrom, ih, place]
    split
    · rfl
    · rfl

theorem transcriptFrom_add (rules : InputRules) (number n : Nat) (lines : List Text) :
    transcriptFrom rules (number + n) lines =
      (transcriptFrom rules number lines).map (Outcome.behind n) := by
  induction lines generalizing number with
  | nil => rfl
  | cons line lines ih =>
    rw [transcriptFrom, transcriptFrom, Nat.add_right_comm, ih]
    split
    · rfl
    · rfl

theorem transcript_append (rules : InputRules) (lines more : List Text) :
    transcript rules (lines ++ more) =
      transcript rules lines ++ (transcript rules more).map (Outcome.behind lines.length) := by
  rw [transcript, transcriptFrom_append, transcriptFrom_add]
  rfl

theorem transcriptFrom_eq_nil_iff {number : Nat} :
    transcriptFrom rules number lines = [] ↔ ∀ line ∈ lines, rules.skips line = true := by
  induction lines generalizing number with
  | nil => simp [transcriptFrom]
  | cons line lines ih =>
    rw [transcriptFrom, List.forall_mem_cons]
    split
    · next skipped => rw [ih, and_iff_right skipped]
    · next read => exact iff_of_false (List.cons_ne_nil _ _) fun all => read all.1

theorem throughFirstFailure_map {f : Outcome → Outcome} (same : ∀ o, (f o).failed = o.failed)
    (full : List Outcome) :
    throughFirstFailure (full.map f) = (throughFirstFailure full).map f := by
  induction full with
  | nil => rfl
  | cons first rest ih =>
    rw [List.map_cons, throughFirstFailure, throughFirstFailure, same, ih]
    split
    · rfl
    · rfl

theorem throughFirstFailure_append_passed (passed : ∀ o ∈ front, o.failed = false)
    (back : List Outcome) :
    throughFirstFailure (front ++ back) = front ++ throughFirstFailure back := by
  induction front with
  | nil => rfl
  | cons first rest ih =>
    rw [List.forall_mem_cons] at passed
    rw [List.cons_append, throughFirstFailure, passed.1, if_neg (by simp), ih passed.2,
      List.cons_append]

theorem throughFirstFailure_append_failed (failed : ∃ o ∈ front, o.failed = true)
    (back : List Outcome) :
    throughFirstFailure (front ++ back) = throughFirstFailure front := by
  induction front with
  | nil => simp at failed
  | cons first rest ih =>
    rw [List.cons_append, throughFirstFailure, throughFirstFailure]
    split
    · rfl
    · next passed =>
      rw [List.exists_mem_cons_iff, or_iff_right passed] at failed
      rw [ih failed]

theorem reportOn_map {f : Outcome → Outcome} (same : ∀ o, (f o).failed = o.failed)
    (failFast : Bool) (full : List Outcome) : reportOn failFast (full.map f) =
      ⟨(reportOn failFast full).outcomes.map f, (reportOn failFast full).stoppedEarly⟩ := by
  cases failFast with
  | false => simp [reportOn]
  | true => simp [reportOn, throughFirstFailure_map same]

theorem reportOn_append_passed (failFast : Bool) (passed : ∀ o ∈ front, o.failed = false)
    (back : List Outcome) : reportOn failFast (front ++ back) =
      ⟨front ++ (reportOn failFast back).outcomes, (reportOn failFast back).stoppedEarly⟩ := by
  cases failFast with
  | false => simp [reportOn]
  | true => simp [reportOn, throughFirstFailure_append_passed passed]

theorem reportOn_append_failed (failed : ∃ o ∈ front, o.failed = true) (back : List Outcome) :
    reportOn true (front ++ back) = ⟨(reportOn true front).outcomes,
      (reportOn true front).stoppedEarly || decide (back ≠ [])⟩ := by
  have within : (throughFirstFailure front).length ≤ front.length :=
    (throughFailure_throughFirstFailure front).isPrefix.length_le
  have longer : (throughFirstFailure front).length < front.length + back.length ↔
      (throughFirstFailure front).length < front.length ∨ back ≠ [] := by
    rw [← List.length_pos_iff]
    omega
  simp only [reportOn, if_true, throughFirstFailure_append_failed failed, List.length_append,
    longer, Bool.decide_or]

theorem hasFailures_reportOn (failFast : Bool) (full : List Outcome) :
    (reportOn failFast full).hasFailures = true ↔ ∃ o ∈ full, o.failed = true := by
  rw [Report.hasFailures, List.any_eq_true]
  cases failFast with
  | false => rfl
  | true =>
    have through : ThroughFailure full (reportOn true full).outcomes :=
      throughFailure_throughFirstFailure full
    generalize (reportOn true full).outcomes = kept at through
    cases through with
    | whole _ => rfl
    | @cut before after o _ failed =>
      exact iff_of_true ⟨o, by simp, failed⟩ ⟨o, by simp, failed⟩

/-- A text that is cut behind a line end is read as its two parts are, the second under
numbers that go on. If the batch stops at the first failure, then one in the first part is
the end of it, and whatever there is to read in the second part is left out. -/
theorem runLines_append (schedule first second : Nat → List Nat) (input : InputRules)
    (rules : BatchRules) {a : Text} (ended : a = [] ∨ a.getLast? = some '\n') (b : Text)
    (complete : ∀ n, (schedule n).Perm (List.range n))
    (completeFirst : ∀ n, (first n).Perm (List.range n))
    (completeSecond : ∀ n, (second n).Perm (List.range n)) :
    let whole := (runLines schedule input rules (a ++ b).lines).value
    let front := (runLines first input rules a.lines).value
    let back := (runLines second input rules b.lines).value
    let joined := front.outcomes ++ back.outcomes.map (Outcome.behind (a.count '\n'))
    (rules.failFast = false → whole = ⟨joined, false⟩) ∧
    (rules.failFast = true → front.hasFailures = true → whole.outcomes = front.outcomes ∧
      (whole.stoppedEarly = true ↔
        front.stoppedEarly = true ∨ ∃ line ∈ b.lines, input.skips line = false)) ∧
    (rules.failFast = true → front.hasFailures = false →
      whole = ⟨joined, back.stoppedEarly⟩) := by
  intro whole front back joined
  have ended := Text.ended_iff.mpr ended
  have frontValue : front = reportOn rules.failFast (transcript input a.lines) :=
    runLines_value first input rules a.lines (completeFirst _)
  have backValue : back = reportOn rules.failFast (transcript input b.lines) :=
    runLines_value second input rules b.lines (completeSecond _)
  have wholeValue : whole = reportOn rules.failFast (transcript input a.lines ++
      (transcript input b.lines).map (Outcome.behind (a.count '\n'))) := by
    rw [← ended.length_lines, ← transcript_append, ← ended.lines_append]
    exact runLines_value schedule input rules _ (complete _)
  refine ⟨?_, ?_, ?_⟩
  · intro goesOn
    simp only [joined, wholeValue, frontValue, backValue, goesOn, reportOn_false]
  · intro stops failed
    -- the whole batch ends where the first part does, so only the flag can tell of the second
    rw [frontValue, hasFailures_reportOn] at failed
    rw [wholeValue, frontValue, stops, reportOn_append_failed failed]
    refine ⟨rfl, ?_⟩
    have rest : (transcript input b.lines).map (Outcome.behind (a.count '\n')) ≠ [] ↔
        ∃ line ∈ b.lines, input.skips line = false := by
      rw [Ne, List.map_eq_nil_iff, transcript, transcriptFrom_eq_nil_iff]
      simp
    rw [← rest, Bool.or_eq_true, decide_eq_true_iff]
  · intro _ passed
    have passed : ∀ o ∈ transcript input a.lines, o.failed = false := by
      rw [← Bool.not_eq_true, frontValue, hasFailures_reportOn] at passed
      simpa using passed
    have all : front.outcomes = transcript input a.lines := by
      rw [frontValue, reportOn_passed rules.failFast passed]
    have same : ∀ o, (Outcome.behind (a.count '\n') o).failed = o.failed := fun _ => rfl
    rw [wholeValue, reportOn_append_passed _ passed, reportOn_map same, ← backValue, ← all]

/-- The comment in the first text counts for the numbers in the second. The other way round
the failure comes first, and leaves the signature behind it out. -/
theorem runLines_append_commented :
    let commented : Text := "# c\r\nint a()\n"
    let failing : Text := "bad\n\n"
    let backwards := fun n => (List.range n).reverse
    commented.getLast? = some '\n' ∧ failing.getLast? = some '\n' ∧
      (∀ n, (backwards n).Perm (List.range n)) ∧ (∀ n, (List.range n).Perm (List.range n)) ∧
      (runLines backwards {} ⟨true, true⟩ (commented ++ failing).lines).value =
        ⟨[⟨2, "int a()", .ok ⟨none, "int", "a", []⟩⟩, ⟨3, "bad", .error (.unopened "bad")⟩],
          false⟩ ∧
      (runLines backwards {} ⟨true, true⟩ (failing ++ commented).lines).value.stoppedEarly =
        true := by
  intro commented failing backwards
  have reversed : ∀ n, (backwards n).Perm (List.range n) := fun n => List.reverse_perm _
  have forwards : ∀ n, (List.range n).Perm (List.range n) := fun n => .refl _
  have passed := (runLines_append backwards List.range List.range {} ⟨true, true⟩
    (Or.inr rfl : commented = [] ∨ _) failing reversed forwards forwards).2.2 rfl rfl
  have failed := (runLines_append backwards List.range List.range {} ⟨true, true⟩
    (Or.inr rfl : failing = [] ∨ _) commented reversed forwards forwards).2.1 rfl rfl
  refine ⟨rfl, rfl, reversed, forwards, passed, ?_⟩
  exact failed.2.mpr (Or.inr ⟨"int a()", by decide, by decide⟩)

end Batch
end MethodLines
