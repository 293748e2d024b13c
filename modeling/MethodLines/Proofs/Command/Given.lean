import MethodLines.Proofs.Batch.Reprinting
import MethodLines.Proofs.Command.Reporting
import MethodLines.Proofs.Text.Trimming

/-! Signatures that are given with the options. Each has its outcome, whatever it is, under
its place among them; but they go through a batch like the lines of a file and are trimmed
there. So what is read is not always what was given: blanks at an end, which reading does not
accept or takes for a part of a token, are gone. -/
namespace MethodLines

open Text

theorem Signature.read_trim_eq_iff {line : Text} {s : Signature}
    (accepted : read (trim line) = .ok s ∨ read line = .ok s) :
    read (trim line) = read line ↔ trim line = line := by
  constructor
  · intro alike
    have trimmed : read (trim line) = .ok s := accepted.elim id alike.trans
    have whole : read line = .ok s := alike.symm.trans trimmed
    rcases render_of_read whole with same | closed
    · have := trim_render trimmed
      rwa [same] at this
    · rcases render_of_read trimmed with same' | closed'
      · have shorter := length_trim_le line
        rw [← same', closed, List.length_append, List.length_singleton] at shorter
        omega
      · exact List.append_cancel_right (closed'.symm.trans closed)
  · intro same
    rw [same]

namespace Reporting

open World

theorem getElem?_transcript_verbatim {lines : List Text} {line : Text} {i : Nat}
    (place : lines[i]? = some line) : (Batch.transcript .verbatim lines)[i]? =
      some ⟨i + 1, trim line, Signature.read (trim line)⟩ := by
  rw [Batch.transcript, Batch.transcriptFrom_verbatim, List.getElem?_map, List.getElem?_zipIdx,
    place, Nat.add_comm i 1]
  rfl

/-- Signatures that are given with the options have one outcome each, in order, under their
places, if no failure ends the batch. What is read is each without the blanks around it; a
signature that is accepted with them or without is read as it was given only if there are
none. -/
theorem collect_given (w : World) (o : Options) (s : Settings) (given : o.signatures ≠ [])
    (goesOn : s.batch.failFast = false) :
    ∃ (report : Report) (after : World),
      (collect o s : StateM World _).run w = (.ok report, after) ∧
      report.outcomes.length = o.signatures.length ∧
      ∀ i t, o.signatures[i]? = some t → ∃ outcome : Outcome, report.outcomes[i]? = some outcome ∧
        outcome.line = i + 1 ∧ outcome.source = trim t ∧
        outcome.result = Signature.read (trim t) ∧
        (trim t = t → outcome.result = Signature.read t) ∧
        ∀ signature, outcome.result = .ok signature ∨ Signature.read t = .ok signature →
          (outcome.result = Signature.read t ↔ trim t = t) := by
  obtain ⟨records, ran⟩ := run_collect_reported (.given given : Reported w o s _)
  have value : (Batch.ofLines .verbatim s.batch o.signatures).value =
      ⟨Batch.transcript .verbatim o.signatures, false⟩ := by
    rw [Batch.ofLines, Batch.runLines_value _ _ _ _ (.refl _), goesOn, Batch.reportOn_false]
  refine ⟨_, _, ran, ?_, ?_⟩
  · rw [value, Batch.transcript, Batch.transcriptFrom_verbatim]
    simp
  · intro i t place
    refine ⟨⟨i + 1, trim t, Signature.read (trim t)⟩, ?_, rfl, rfl, rfl, ?_, ?_⟩
    · rw [value]
      exact getElem?_transcript_verbatim place
    · intro whole
      exact congrArg Signature.read whole
    · intro signature accepted
      exact Signature.read_trim_eq_iff accepted

/-- What would be a comment in a file is read, and what is empty is rejected; the blank in
front of the third signature is no part of what is read. -/
theorem collect_given_trimmed :
    let given : List Text := ["# x()", "", "\u3000int a(T b"]
    given ≠ [] ∧ ({} : Settings).batch.failFast = false ∧
      ∃ (report : Report) (after : World), (collect { signatures := given } {} : StateM World _).run
        { tree := ⟨[]⟩ } = (.ok report, after) ∧ report.outcomes.length = 3 ∧
        (∃ outcome : Outcome, report.outcomes[0]? = some outcome ∧ outcome.line = 1 ∧
          outcome.result = .ok ⟨none, "#", "x", []⟩) ∧
        ∃ outcome : Outcome, report.outcomes[2]? = some outcome ∧ outcome.line = 3 ∧
          outcome.result ≠ Signature.read "\u3000int a(T b" := by
  intro given
  obtain ⟨report, after, ran, length, outcomes⟩ := collect_given { tree := ⟨[]⟩ }
    { signatures := given } {} (by simp [given]) rfl
  obtain ⟨first, found, number, _, _, asGiven, _⟩ := outcomes 0 "# x()" rfl
  obtain ⟨third, found', number', _, trimmed, _, blanks⟩ := outcomes 2 "\u3000int a(T b" rfl
  refine ⟨by simp [given], rfl, report, after, ran, length, ⟨first, found, number, ?_⟩,
    third, found', number', ?_⟩
  · exact asGiven (by decide)
  · have accepted : third.result = .ok ⟨none, "int", "a", [⟨"T", "b"⟩]⟩ := trimmed
    rw [Ne, blanks _ (Or.inl accepted)]
    decide

/-- A blank in front is accepted with the options although no signature may start with it. -/
theorem collect_given_blank : ¬ ∀ (w : World) (o : Options) (s : Settings), o.signatures ≠ [] →
    s.batch.failFast = false →
    ∃ (report : Report) (after : World),
      (collect o s : StateM World _).run w = (.ok report, after) ∧
      report.outcomes.length = o.signatures.length ∧
      ∀ i t, o.signatures[i]? = some t → ∃ outcome : Outcome, report.outcomes[i]? = some outcome ∧
        outcome.line = i + 1 ∧ outcome.result = Signature.read t := by
  intro always
  obtain ⟨report, after, ran, _, outcomes⟩ := always { tree := ⟨[]⟩ }
    { signatures := [" int a()"] } {} (by simp) rfl
  obtain ⟨outcome, found, _, result⟩ := outcomes 0 " int a()" rfl
  have accepted : ((collect { signatures := [" int a()"] } {} : StateM World _).run
      { tree := ⟨[]⟩ }).1 = .ok ⟨[⟨1, "int a()", .ok ⟨none, "int", "a", []⟩⟩], false⟩ := by rfl
  rw [ran] at accepted
  cases accepted
  cases found
  have rejected : Signature.read " int a()" = .error (.emptyToken " int a" .modifier) := by rfl
  rw [rejected] at result
  contradiction

end Reporting
end MethodLines
