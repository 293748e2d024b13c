import MethodLines.Proofs.Signature.Reading

/-! Everything that can be wrong with a line, each defect told on its own with the
reason for it, and which one is reported when a line has several. -/
namespace MethodLines

/-- The order in which defects are reported. -/
def Rejection.rank : Rejection → Nat
  | .unopened _ => 1
  | .tokenCount .. => 2
  | .emptyToken .. => 3
  | .reopened _ => 4
  | .closedWithin _ => 5
  | .argument _ => 6
  | .ambiguous _ => 7

/-- The result is the given rejection, or one that goes before it. -/
def Reported {α : Type} (e : Rejection) (result : Except Rejection α) : Prop :=
  ∃ d, result = .error d ∧ (d = e ∨ d.rank < e.rank)

namespace Reported

variable {α β : Type} {e d : Rejection}

theorem of_error {result : Except Rejection α} (failed : result = .error e) : Reported e result :=
  ⟨e, failed, Or.inl rfl⟩

theorem of_earlier {result : Except Rejection α} (failed : result = .error d)
    (earlier : d.rank < e.rank) : Reported e result :=
  ⟨d, failed, Or.inr earlier⟩

theorem bind {step : Except Rejection α} {next : α → Except Rejection β}
    (reported : Reported e step) : Reported e (step >>= next) := by
  obtain ⟨d, failed, order⟩ := reported
  exact ⟨d, Outcome.bind_error_iff.mpr (Or.inl failed), order⟩

/-- A later step reports its defects unless an earlier step fails. -/
theorem bind_later {step : Except Rejection α} {next : α → Except Rejection β}
    (before : ∀ d, step = .error d → d.rank < e.rank)
    (later : ∀ a, step = .ok a → Reported e (next a)) : Reported e (step >>= next) := by
  cases result : step with
  | error d => exact of_earlier rfl (before d result)
  | ok a => exact later a result

end Reported

namespace Signature

open Text

/-- The text before the first opening parenthesis, and the text behind it. -/
def Opened (line head rest : Text) : Prop := '(' ∉ head ∧ line = head ++ '(' :: rest

/-- The text without one closing parenthesis at its end, if one stands there. -/
def Unclosed (rest body : Text) : Prop := rest = body ++ [')'] ∨ rest = body ∧ ¬ [')'] <:+ rest

/-- What is wrong with a line. A line may have several defects, but none that needs an
opening parenthesis together with the lack of one. -/
inductive Defect (line : Text) : Rejection → Prop where
  | unopened : '(' ∉ line → Defect line (.unopened line)
  | tokenCount {head rest : Text} : Opened line head rest →
      head.count ' ' ≠ 1 → head.count ' ' ≠ 2 →
      Defect line (.tokenCount head (head.count ' ' + 1))
  | emptyToken {head rest : Text} {tokens : List Text} {place : TokenPlace} :
      Opened line head rest → Pieces [' '] head tokens → FirstEmpty tokens place →
      Defect line (.emptyToken head place)
  | reopened {head rest : Text} : Opened line head rest → '(' ∈ rest →
      Defect line (.reopened rest)
  | closedWithin {head rest body : Text} : Opened line head rest → Unclosed rest body →
      ')' ∈ body → Defect line (.closedWithin rest)
  | argument {head rest body fragment : Text} {before after : List Text} :
      Opened line head rest → Unclosed rest body → body ≠ [] →
      Pieces [',', ' '] body (before ++ fragment :: after) →
      (∀ f ∈ before, ∃ a : Argument, a.Words ∧ a.render = f) →
      (¬ ∃ a : Argument, a.Words ∧ a.render = fragment) →
      Defect line (.argument fragment)

variable {line head rest body : Text} {e d : Rejection}

theorem unclosed_iff_dropFinal : Unclosed rest body ↔ dropFinal ')' rest = body :=
  dropFinal_eq_iff.symm

theorem read_unopened (missing : '(' ∉ line) : read line = .error (.unopened line) := by
  unfold read
  rw [cut?_eq_none_iff.mpr missing]

theorem read_opened (opened : Opened line head rest) : read line = do
    let (modifier, returnType, name) ← readHead head
    let body ← readBody rest
    let arguments ← readArguments body
    return ⟨modifier, returnType, name, arguments⟩ := by
  unfold read
  rw [cut?_eq_some_iff.mpr opened]

/-- A defect of the head goes before every later one. -/
theorem readHead_rank (failed : readHead head = .error d) (later : 3 < e.rank) :
    d.rank < e.rank := by
  rcases readHead_error_iff.mp failed with ⟨_, _, rfl⟩ | ⟨_, _, _, _, rfl⟩
  · exact Nat.lt_of_succ_lt later
  · exact later

theorem readBody_rank (failed : readBody rest = .error d) (later : 5 < e.rank) :
    d.rank < e.rank := by
  rcases readBody_error_iff.mp failed with ⟨_, rfl⟩ | ⟨_, _, rfl⟩
  · exact Nat.lt_of_succ_lt later
  · exact later

theorem readBody_unclosed (accepted : readBody rest = .ok body) : Unclosed rest body := by
  obtain ⟨_, unclosed, rfl | rfl⟩ := readBody_ok_iff.mp accepted
  · exact Or.inr ⟨rfl, fun final => unclosed (final.mem (by simp))⟩
  · exact Or.inl rfl

/-- A line with a defect is rejected, if not for this one then for an earlier one. -/
theorem Defect.reported (defect : Defect line e) : Reported e (read line) := by
  cases defect with
  | unopened missing => exact .of_error (read_unopened missing)
  | tokenCount opened notTwo notThree =>
    rw [read_opened opened]
    exact (Reported.of_error (readHead_of_count notTwo notThree)).bind
  | emptyToken opened cut first =>
    rw [read_opened opened]
    exact (Reported.of_error (readHead_of_firstEmpty cut first)).bind
  | @reopened head rest opened inside =>
    rw [read_opened opened]
    apply Reported.bind_later
    · intro d failed
      exact readHead_rank failed (by simp [Rejection.rank])
    · intro _ _
      exact (Reported.of_error (readBody_error_iff.mpr (Or.inl ⟨inside, rfl⟩))).bind
  | @closedWithin head rest body opened unclosed inside =>
    rw [read_opened opened]
    -- the opening parenthesis is looked for first, and may be there as well
    rw [← unclosed_iff_dropFinal.mp unclosed] at inside
    apply Reported.bind_later
    · intro d failed
      exact readHead_rank failed (by simp [Rejection.rank])
    · intro _ _
      apply Reported.bind
      by_cases second : '(' ∈ rest
      · exact .of_earlier (readBody_error_iff.mpr (Or.inl ⟨second, rfl⟩)) (by simp [Rejection.rank])
      · exact .of_error (readBody_error_iff.mpr (Or.inr ⟨second, inside, rfl⟩))
  | @argument head rest body fragment before after opened unclosed nonempty cut pairs broken =>
    rw [read_opened opened]
    apply Reported.bind_later
    · intro d failed
      exact readHead_rank failed (by simp [Rejection.rank])
    · intro _ _
      apply Reported.bind_later
      · intro d failed
        exact readBody_rank failed (by simp [Rejection.rank])
      · intro other accepted
        have dropped := unclosed_iff_dropFinal.mp (readBody_unclosed accepted)
        cases dropped.symm.trans (unclosed_iff_dropFinal.mp unclosed)
        exact (Reported.of_error (readArguments_error_iff.mpr
          ⟨nonempty, before, fragment, after, cut, pairs, broken, rfl⟩)).bind

theorem opened_of_mem (present : '(' ∈ line) : ∃ head rest, Opened line head rest := by
  cases cut : cut? '(' line with
  | none => exact absurd present (cut?_eq_none_iff.mp cut)
  | some parts => exact ⟨parts.1, parts.2, cut?_eq_some_iff.mp cut⟩

/-- Whatever is reported is a defect of the line. -/
theorem defect_of_error (failed : read line = .error e) : Defect line e := by
  by_cases present : '(' ∈ line
  · obtain ⟨head, rest, opened⟩ := opened_of_mem present
    rw [read_opened opened] at failed
    rcases Outcome.bind_error_iff.mp failed with failed | ⟨_, _, failed⟩
    · rcases readHead_error_iff.mp failed with ⟨notTwo, notThree, rfl⟩ | ⟨_, _, cut, first, rfl⟩
      · exact .tokenCount opened notTwo notThree
      · exact .emptyToken opened cut first
    · rcases Outcome.bind_error_iff.mp failed with failed | ⟨body, accepted, failed⟩
      · rcases readBody_error_iff.mp failed with ⟨inside, rfl⟩ | ⟨_, inside, rfl⟩
        · exact .reopened opened inside
        · exact .closedWithin opened (unclosed_iff_dropFinal.mpr rfl) inside
      · rcases Outcome.bind_error_iff.mp failed with failed | ⟨_, _, impossible⟩
        · obtain ⟨nonempty, _, _, _, cut, pairs, broken, rfl⟩ := readArguments_error_iff.mp failed
          exact .argument opened (readBody_unclosed accepted) nonempty cut pairs broken
        · cases impossible
  · rw [read_unopened present] at failed
    cases failed
    exact .unopened present

/-- A line is rejected exactly if it has a defect, and for the first of its defects. A
line is never rejected as ambiguous: that is the fate of records. -/
theorem read_eq_error_iff (line : Text) :
    (∀ e, read line = .error e ↔ Defect line e ∧ ∀ d, Defect line d → e.rank ≤ d.rank) ∧
      ((∃ e, read line = .error e) ↔ ∃ d, Defect line d) ∧
      ∀ rendered, read line ≠ .error (.ambiguous rendered) := by
  refine ⟨?_, ?_, ?_⟩
  · intro e
    constructor
    · intro failed
      refine ⟨defect_of_error failed, ?_⟩
      intro d defect
      obtain ⟨first, same, order⟩ := defect.reported
      cases failed.symm.trans same
      rcases order with rfl | earlier
      · exact Nat.le_refl _
      · exact Nat.le_of_lt earlier
    · rintro ⟨defect, least⟩
      obtain ⟨first, failed, rfl | earlier⟩ := defect.reported
      · exact failed
      · have := least first (defect_of_error failed)
        omega
  · constructor
    · rintro ⟨e, failed⟩
      exact ⟨e, defect_of_error failed⟩
    · rintro ⟨d, defect⟩
      obtain ⟨e, failed, _⟩ := defect.reported
      exact ⟨e, failed⟩
  · intro rendered failed
    cases defect_of_error failed

end Signature
end MethodLines
