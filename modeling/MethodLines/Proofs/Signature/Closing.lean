import MethodLines.Proofs.Signature.Defects
import MethodLines.Proofs.Signature.RoundTrip

/-! The closing parenthesis may be left out, and that is all that it does: putting one behind a
line that has none at its end changes neither the record nor the reason for a rejection. Only
one is left out, so a second one is never accepted. -/
namespace MethodLines

/-- The same rejection with a closing parenthesis put behind the line. It shows where the
rejected text reaches to the end of the line. -/
def Rejection.closed : Rejection → Rejection
  | .unopened line => .unopened (line ++ ")")
  | .reopened rest => .reopened (rest ++ ")")
  | .closedWithin rest => .closedWithin (rest ++ ")")
  | .tokenCount head count => .tokenCount head count
  | .emptyToken head place => .emptyToken head place
  | .argument fragment => .argument fragment
  | .ambiguous rendered => .ambiguous rendered

namespace Signature

open Text

variable {line head rest body : Text} {e : Rejection}

theorem closed_of_readHead (failed : readHead head = .error e) : e.closed = e := by
  rcases readHead_error_iff.mp failed with ⟨_, _, rfl⟩ | ⟨_, _, _, _, rfl⟩
  · rfl
  · rfl

theorem closed_of_readArguments (failed : readArguments body = .error e) : e.closed = e := by
  obtain ⟨_, _, _, _, _, _, _, rfl⟩ := readArguments_error_iff.mp failed
  rfl

/-- The parenthesis is taken off again before the body is looked at. -/
theorem readBody_append_close (unclosed : ¬ [')'] <:+ rest) :
    readBody (rest ++ [')']) = (readBody rest).mapError Rejection.closed := by
  have opened : '(' ∈ rest ++ [')'] ↔ '(' ∈ rest := by simp
  unfold readBody
  rw [dropFinal_append, dropFinal_of_not_suffix unclosed, if_congr opened rfl rfl]
  split
  · rfl
  · split
    · rfl
    · rfl

/-- Behind the first opening parenthesis, only the rejections of the body are other ones. -/
theorem read_opened_append_close (opened : Opened line head rest) (unclosed : ¬ [')'] <:+ rest) :
    read (line ++ [')']) = (read line).mapError Rejection.closed := by
  have opened' : Opened (line ++ [')']) head (rest ++ [')']) :=
    ⟨opened.1, by simp [opened.2]⟩
  simp only [read_opened opened, read_opened opened', readBody_append_close unclosed,
    Outcome.mapError_bind, Outcome.mapError_eq_self fun _ => closed_of_readHead,
    Outcome.mapError_eq_self fun _ => closed_of_readArguments]
  rfl

theorem read_append_close (unclosed : ¬ [')'] <:+ line) :
    read (line ++ [')']) = (read line).mapError Rejection.closed := by
  by_cases present : '(' ∈ line
  · obtain ⟨head, rest, opened⟩ := opened_of_mem present
    apply read_opened_append_close opened
    intro final
    apply unclosed
    exact (final.trans (List.suffix_cons '(' rest)).trans (opened.2 ▸ List.suffix_append head _)
  · have missing : '(' ∉ line ++ [')'] := by simpa using present
    rw [read_unopened present, read_unopened missing]
    rfl

/-- Neither the parenthesis nor the one before it can belong to the body of a record. -/
theorem rejected_of_closed_twice (closed : [')'] <:+ line) :
    ∃ e, read (line ++ [')']) = .error e := by
  cases result : read (line ++ [')']) with
  | error e => exact ⟨e, rfl⟩
  | ok s =>
    obtain ⟨valid, whole | unclosed⟩ := read_iff_parts.mp result
    · exact absurd (whole ▸ List.suffix_append line _) (not_closed_of_wellFormed valid)
    · rw [← List.cons_append, ← List.append_assoc, List.append_left_inj] at unclosed
      exact absurd (unclosed ▸ closed) (not_closed_of_wellFormed valid)

/-- With a closing parenthesis put behind it, a line that does not end in one stands for the
same record, or is rejected for the same reason. A line that ends in one already is rejected. -/
theorem read_closed (line : Text) :
    (line.getLast? ≠ some ')' →
      (∃ s, read line = .ok s ∧ read (line ++ ")") = .ok s) ∨
        ∃ e, read line = .error e ∧ read (line ++ ")") = .error e.closed) ∧
      (line.getLast? = some ')' → ∃ e, read (line ++ ")") = .error e) := by
  have final : line.getLast? = some ')' ↔ [')'] <:+ line := by
    rw [List.getLast?_eq_some_iff]
    exact exists_congr fun before => eq_comm
  rw [ne_eq, final]
  refine ⟨fun unclosed => ?_, rejected_of_closed_twice⟩
  have both := read_append_close unclosed
  cases result : read line with
  | ok s =>
    rw [result] at both
    exact Or.inl ⟨s, rfl, both⟩
  | error e =>
    rw [result] at both
    exact Or.inr ⟨e, rfl, both⟩

/-- The stray parenthesis is still the reason when the line is closed, and the text that was
rejected has one more of them. -/
theorem read_closed_stray :
    (("int f(a b)c" : Text).getLast? ≠ some ')' ∧
      ∃ e, read "int f(a b)c" = .error e ∧ e = .closedWithin "a b)c" ∧
        read "int f(a b)c)" = .error (.closedWithin "a b)c)")) ∧
      ("int f()" : Text).getLast? = some ')' ∧ ∃ e, read "int f())" = .error e := by
  have rejected : read "int f(a b)c" = .error (.closedWithin "a b)c") := by rfl
  have apart : ("int f(a b)c" : Text).getLast? ≠ some ')' := by decide
  have closed : ("int f()" : Text).getLast? = some ')' := by decide
  refine ⟨⟨apart, ?_⟩, closed, (read_closed "int f()").2 closed⟩
  obtain ⟨s, accepted, _⟩ | ⟨e, failed, both⟩ := (read_closed "int f(a b)c").1 apart
  · cases accepted.symm.trans rejected
  · cases failed.symm.trans rejected
    exact ⟨_, rejected, rfl, both⟩

end Signature
end MethodLines
