import MethodLines.Proofs.Signature.Defects
import MethodLines.Proofs.Signature.RoundTrip

/-! Checking a record by reading its line comes to the same as checking its tokens one
by one. Tokens that are not well formed may together make up the line of another
record, and this is the only way in which a line that can be read is refused. -/
namespace MethodLines.Signature

open Text

variable {s r : Signature} {e : Rejection}

/-- The line of a well-formed record does not end in two closing parentheses. -/
theorem render_ne_render_closed (valid : r.WellFormed) : s.render ++ [')'] ≠ r.render := by
  intro same
  apply not_closed_of_wellFormed valid
  rw [← append_close_iff.mp same, render_eq]
  exact ⟨s.head ++ '(' :: s.body, by simp⟩

/-- The records that are read off the line of a record. -/
theorem read_render_iff : read s.render = .ok r ↔ r.WellFormed ∧ r.render = s.render := by
  rw [read_iff_parts]
  constructor
  · rintro ⟨valid, unclosed | whole⟩
    · exact absurd (append_close_iff.mpr unclosed) (render_ne_render_closed valid)
    · exact ⟨valid, r.render_eq.trans whole.symm⟩
  · rintro ⟨valid, same⟩
    exact ⟨valid, Or.inr (same.symm.trans r.render_eq)⟩

theorem check_ok_iff : s.check = .ok r ↔ s.WellFormed ∧ r = s := by
  unfold check
  rw [Outcome.bind_ok_iff]
  constructor
  · rintro ⟨reading, accepted, result⟩
    split at result
    · rename_i same
      cases result
      exact ⟨same ▸ (read_render_iff.mp accepted).1, rfl⟩
    · cases result
  · rintro ⟨valid, rfl⟩
    exact ⟨r, read_render valid, by rw [if_pos rfl]; rfl⟩

theorem check_error_iff : s.check = .error e ↔ read s.render = .error e ∨
    e = .ambiguous s.render ∧ ∃ other, other ≠ s ∧ other.WellFormed ∧ other.render = s.render := by
  unfold check
  rw [Outcome.bind_error_iff]
  apply or_congr_right
  constructor
  · rintro ⟨other, accepted, result⟩
    split at result
    · cases result
    · rename_i different
      cases result
      exact ⟨rfl, other, different, read_render_iff.mp accepted⟩
  · rintro ⟨rfl, other, different, valid⟩
    exact ⟨other, read_render_iff.mpr valid, by rw [if_neg different]; rfl⟩

/-- No combination of tokens gets a record through that has one bad token, and none
keeps back a record whose tokens are all well formed. A record is rejected for its line
if that cannot be read, and for its ambiguity exactly if another well-formed record has
the same line. -/
theorem check_decides_wellFormed (s : Signature) :
    (∀ r, s.check = .ok r ↔ s.WellFormed ∧ r = s) ∧
      (∀ e, read s.render = .error e → s.check = .error e) ∧
      ∀ rendered, s.check = .error (.ambiguous rendered) ↔ rendered = s.render ∧
        ∃ other, other ≠ s ∧ other.WellFormed ∧ other.render = s.render := by
  refine ⟨fun r => check_ok_iff, fun e failed => check_error_iff.mpr (Or.inl failed), ?_⟩
  intro rendered
  rw [check_error_iff, Rejection.ambiguous.injEq]
  constructor
  · rintro (failed | ambiguous)
    · cases defect_of_error failed
    · exact ambiguous
  · exact Or.inr

example : check ⟨none, "static void", "main", []⟩ = .error (.ambiguous "static void main()") := by
  rfl

end MethodLines.Signature
