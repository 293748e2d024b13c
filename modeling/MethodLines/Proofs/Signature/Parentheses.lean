import MethodLines.Proofs.Signature.Defects
import MethodLines.Proofs.Signature.RoundTrip

/-! Where parentheses stand in the lines that are read. There is one that opens, and behind
it one that closes at most, as the last character. The text before it is only cut at blanks,
so a closing parenthesis there is a part of a token like any other character. -/
namespace MethodLines

theorem Text.not_mem_dropLast_iff {c : Char} {t : Text} :
    c ∉ t.dropLast ↔ t.count c ≤ 1 ∧ (c ∈ t → t.getLast? = some c) := by
  rcases List.eq_nil_or_concat t with rfl | ⟨before, d, rfl⟩
  · simp
  · rw [List.concat_eq_append, List.dropLast_concat, List.count_append, List.getLast?_concat,
      List.mem_append, List.mem_singleton, Option.some.injEq]
    constructor
    · intro absent
      rw [List.count_eq_zero_of_not_mem absent, Nat.zero_add]
      refine ⟨List.count_le_length, ?_⟩
      rintro (inside | rfl)
      · exact absurd inside absent
      · rfl
    · rintro ⟨once, last⟩ inside
      obtain rfl := last (Or.inl inside)
      have := List.count_pos_iff.mpr inside
      rw [List.count_singleton_self] at once
      omega

namespace Signature

open Text

variable {line head rest : Text} {s : Signature}

theorem mem_head {c : Char} (letter : c ≠ ' ') : c ∈ s.head ↔ ∃ t ∈ s.tokens, c ∈ t := by
  rw [head_eq, mem_intercalate (by simpa using letter)]

/-- A line that is read has one opening parenthesis. -/
theorem count_open (accepted : read line = .ok s) : line.count '(' = 1 := by
  obtain ⟨valid, ending⟩ := read_iff_parts.mp accepted
  obtain ⟨⟨_, _, head⟩, ⟨body, _⟩, _⟩ := wellFormed_iff.mp valid
  rcases ending with rfl | rfl
  all_goals simp [List.count_eq_zero_of_not_mem head, List.count_eq_zero_of_not_mem body]

/-- In a line that is read, a closing parenthesis before the end belongs to a token. -/
theorem closed_before_end_iff (accepted : read line = .ok s) :
    ')' ∈ line.dropLast ↔ ∃ t ∈ s.tokens, ')' ∈ t := by
  obtain ⟨valid, ending⟩ := read_iff_parts.mp accepted
  obtain ⟨_, ⟨_, body⟩, _⟩ := wellFormed_iff.mp valid
  rw [← mem_head (by decide)]
  have behind : ')' ∉ '(' :: s.body := by simp [body]
  rcases ending with rfl | rfl
  · rw [List.dropLast_append_of_ne_nil (by simp), List.mem_append]
    exact or_iff_left fun inside => behind (List.dropLast_subset _ inside)
  · rw [← List.cons_append, ← List.append_assoc, List.dropLast_concat, List.mem_append]
    exact or_iff_left behind

/-- Behind the opening parenthesis, one that closes before the end is a defect. -/
theorem rejected_of_closed_within (opened : Opened line head rest)
    (inside : ')' ∈ rest.dropLast) : ∃ e, read line = .error e := by
  have inBody : ∃ body, Unclosed rest body ∧ ')' ∈ body := by
    by_cases final : [')'] <:+ rest
    · obtain ⟨body, rfl⟩ := final
      rw [List.dropLast_concat] at inside
      exact ⟨body, Or.inl rfl, inside⟩
    · exact ⟨rest, Or.inr ⟨rfl, final⟩, List.dropLast_subset _ inside⟩
  obtain ⟨body, unclosed, inside⟩ := inBody
  obtain ⟨e, failed, _⟩ := (Defect.closedWithin opened unclosed inside).reported
  exact ⟨e, failed⟩

/-- A line that is read has one opening parenthesis, and it has no closing one but as its
last character exactly if no token before the opening one holds any. A closing parenthesis
anywhere else behind the opening one is never accepted. -/
theorem read_parentheses (line : Text) :
    (∀ s, read line = .ok s → line.count '(' = 1 ∧
      ((line.count ')' ≤ 1 ∧ (')' ∈ line → line.getLast? = some ')')) ↔
        ∀ t ∈ s.tokens, ')' ∉ t)) ∧
      ∀ head rest, Opened line head rest → ')' ∈ rest.dropLast → ∃ e, read line = .error e := by
  refine ⟨?_, fun head rest => rejected_of_closed_within⟩
  intro s accepted
  refine ⟨count_open accepted, ?_⟩
  rw [← not_mem_dropLast_iff, closed_before_end_iff accepted]
  simp only [not_exists, not_and]

/-- A closing parenthesis in the name of a method is accepted, besides the one at the end. -/
theorem read_closed_in_name : ¬ ∀ (line : Text) (s : Signature), read line = .ok s →
    line.count '(' = 1 ∧ line.count ')' ≤ 1 ∧ (')' ∈ line → line.getLast? = some ')') := by
  intro always
  have accepted : read "int f)(int a)" = .ok ⟨none, "int", "f)", [⟨"int", "a"⟩]⟩ := by rfl
  have once := (always _ _ accepted).2.1
  revert once
  decide

end Signature
end MethodLines
