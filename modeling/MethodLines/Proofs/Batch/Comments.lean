import MethodLines.Proofs.Batch.Transcript
import MethodLines.Proofs.Text.Trimming

/-! Lines that start with the mark of comments. The mark is looked for in the trimmed line,
so blanks of its own count against it: one in front is never found, and one at its end is not
found where nothing but blanks follows. Only a mark without blanks around it keeps every
comment out of a batch. -/
namespace MethodLines

open Text

namespace InputRules

variable {rules : InputRules} {indent rest : Text}

/-- The line starts with the mark of comments, directly or behind blanks. -/
def Comment (rules : InputRules) (line : Text) : Prop :=
  ∃ indent rest, (∀ c ∈ indent, isBlank c = true) ∧ line = indent ++ rules.commentMark ++ rest

theorem skips_comment_iff (marked : rules.commentMark ≠ [])
    (blank : ∀ c ∈ indent, isBlank c = true) :
    rules.skips (indent ++ rules.commentMark ++ rest) = true ↔
      rules.skipBlank = true ∧ (∀ c ∈ indent ++ rules.commentMark ++ rest, isBlank c = true) ∨
        ¬ Cropped rules.commentMark rest := by
  rw [← prefix_trim_iff blank, ← trim_eq_nil_iff, skips, Bool.or_eq_true, Bool.and_eq_true,
    Bool.and_eq_true, List.isEmpty_iff, List.isPrefixOf_iff_prefix]
  simp [marked]

theorem cropped_of_read (marked : rules.commentMark ≠ [])
    (blank : ∀ c ∈ indent, isBlank c = true)
    (read : rules.skips (indent ++ rules.commentMark ++ rest) = false) :
    Cropped rules.commentMark rest := by
  rw [← Bool.not_eq_true, skips_comment_iff marked blank, not_or, not_not] at read
  exact read.2

theorem read_of_cropped (marked : rules.commentMark ≠ [])
    (blank : ∀ c ∈ indent, isBlank c = true) (cropped : Cropped rules.commentMark rest)
    (filled : ∃ c ∈ indent ++ rules.commentMark ++ rest, isBlank c = false) :
    rules.skips (indent ++ rules.commentMark ++ rest) = false := by
  rw [← Bool.not_eq_true, skips_comment_iff marked blank]
  rintro (⟨_, allBlank⟩ | kept)
  · obtain ⟨c, inside, filled⟩ := filled
    simp [allBlank c inside] at filled
  · exact kept cropped

/-- A mark with blanks around it starts a line that is not taken for a comment. -/
theorem exists_comment_read (marked : rules.commentMark ≠ [])
    (padded : trim rules.commentMark ≠ rules.commentMark) :
    ∃ line, rules.Comment line ∧ rules.skips line = false := by
  have lost : ∃ rest, Cropped rules.commentMark rest ∧
      ∃ c ∈ [] ++ rules.commentMark ++ rest, isBlank c = false := by
    obtain ⟨d, start⟩ := Option.isSome_iff_exists.mp (List.isSome_head?.mpr marked)
    cases first : isBlank d with
    | true => exact ⟨"x", Or.inl ⟨d, start, first⟩, 'x', by simp, by decide⟩
    | false =>
      rw [Ne, trim_eq_self_iff_not_cropped, not_forall_not] at padded
      obtain ⟨_, ⟨c, start', blank⟩ | ⟨last, _⟩⟩ := padded
      · rw [start, Option.some.injEq] at start'
        simp [← start', first] at blank
      · exact ⟨[], Or.inr ⟨last, by simp⟩, d, by simp [List.mem_of_head? start], first⟩
  obtain ⟨rest, cropped, filled⟩ := lost
  exact ⟨[] ++ rules.commentMark ++ rest, ⟨[], rest, by simp, rfl⟩,
    read_of_cropped marked (by simp) cropped filled⟩

end InputRules

namespace Batch

variable {input : InputRules} {lines : List Text} {line : Text} {schedule : Nat → List Nat}
  {rules : BatchRules}

theorem outcomes_single (failFast : Bool) (o : Outcome) :
    (reportOn failFast [o]).outcomes = [o] := by
  cases failFast with
  | false => rfl
  | true => simp [reportOn, throughFirstFailure]

theorem outcome_of_single (rules : BatchRules) (complete : ∀ n, (schedule n).Perm (List.range n))
    (read : input.skips line = false) :
    ∃ o ∈ (runLines schedule input rules [line]).value.outcomes, o.line = 1 := by
  rw [runLines_value schedule input rules [line] (complete _), transcript, transcriptFrom, read,
    if_neg (by simp), transcriptFrom, outcomes_single]
  exact ⟨_, List.mem_singleton_self _, rfl⟩

theorem skips_of_outcome {i : Nat} {o : Outcome} (complete : ∀ n, (schedule n).Perm (List.range n))
    (place : lines[i]? = some line)
    (member : o ∈ (runLines schedule input rules lines).value.outcomes) (number : o.line = i + 1) :
    input.skips line = false := by
  obtain ⟨j, other, found, read, rfl⟩ := line_of_mem_outcomes complete member
  obtain rfl : i = j := by
    have : 1 + j = i + 1 := number
    omega
  rw [place, Option.some.injEq] at found
  rwa [found]

/-- No comment is read if the mark has no blanks around it, and only then. A line that starts
with the mark is read only if trimming takes the mark off its front; and then it is read, if
it is not blank, by every batch that comes to it. -/
theorem runLines_comments (schedule : Nat → List Nat) (input : InputRules) (rules : BatchRules)
    (marked : input.commentMark ≠ []) (complete : ∀ n, (schedule n).Perm (List.range n)) :
    (trim input.commentMark = input.commentMark ↔
      ∀ lines i line, lines[i]? = some line → input.Comment line →
        ∀ o ∈ (runLines schedule input rules lines).value.outcomes, o.line ≠ i + 1) ∧
    ∀ lines i indent rest, (∀ c ∈ indent, isBlank c = true) →
      lines[i]? = some (indent ++ input.commentMark ++ rest) →
      (∀ o ∈ (runLines schedule input rules lines).value.outcomes, o.line = i + 1 →
        Cropped input.commentMark rest) ∧
      (rules.failFast = false → Cropped input.commentMark rest →
        (∃ c ∈ indent ++ input.commentMark ++ rest, isBlank c = false) →
        ∃ o ∈ (runLines schedule input rules lines).value.outcomes, o.line = i + 1) := by
  have cropped : ∀ lines i indent rest, (∀ c ∈ indent, isBlank c = true) →
      lines[i]? = some (indent ++ input.commentMark ++ rest) →
      ∀ o ∈ (runLines schedule input rules lines).value.outcomes, o.line = i + 1 →
        Cropped input.commentMark rest := by
    intro lines i indent rest blank place o member number
    exact InputRules.cropped_of_read marked blank (skips_of_outcome complete place member number)
  refine ⟨⟨?_, ?_⟩, ?_⟩
  · rintro whole lines i _ place ⟨indent, rest, blank, rfl⟩ o member number
    exact trim_eq_self_iff_not_cropped.mp whole rest
      (cropped lines i indent rest blank place o member number)
  · intro never
    by_contra padded
    obtain ⟨line, comment, read⟩ := InputRules.exists_comment_read marked padded
    obtain ⟨o, member, number⟩ := outcome_of_single rules complete read
    exact never [line] 0 line rfl comment o member number
  · intro lines i indent rest blank place
    refine ⟨cropped lines i indent rest blank place, ?_⟩
    intro goesOn lost filled
    have read := InputRules.read_of_cropped marked blank lost filled
    rw [runLines_value schedule input rules lines (complete _), goesOn]
    exact ⟨_, mem_transcriptFrom.mpr ⟨i, _, place, read, rfl⟩, Nat.add_comm 1 i⟩

/-- With a mark that ends in a blank, a line that has the mark and nothing else is read. -/
theorem runLines_comments_padded :
    let input : InputRules := ⟨"# ", true⟩
    let lines : List Text := ["\t# a", "", " # "]
    input.commentMark ≠ [] ∧ (∀ n, (List.range n).Perm (List.range n)) ∧
      (∀ o ∈ (runLines List.range input {} lines).value.outcomes, o.line ≠ 1) ∧
      (∃ o ∈ (runLines List.range input {} lines).value.outcomes, o.line = 3) ∧
      ¬ ∀ lines i line, lines[i]? = some line → input.Comment line →
        ∀ o ∈ (runLines List.range input {} lines).value.outcomes, o.line ≠ i + 1 := by
  intro input lines
  have forwards : ∀ n, (List.range n).Perm (List.range n) := fun n => .refl _
  obtain ⟨clean, cropped⟩ := runLines_comments List.range input {} (by simp [input]) forwards
  refine ⟨by simp [input], forwards, ?_, ?_, ?_⟩
  · intro o member number
    obtain ⟨c, first, blank⟩ | ⟨_, behind⟩ :=
      (cropped lines 0 ['\t'] "a" (List.forall_mem_singleton.mpr (by decide)) rfl).1 o member number
    · cases first
      exact absurd blank (by decide)
    · exact absurd (behind 'a' (by simp)) (by decide)
  · exact (cropped lines 2 [' '] "" (List.forall_mem_singleton.mpr (by decide)) rfl).2 rfl
      (Or.inr ⟨⟨' ', rfl, by decide⟩, by simp⟩) ⟨'#', by decide, by decide⟩
  · rw [← clean]
    decide

/-- A mark that starts with a blank finds nothing, not even what starts just like it. -/
theorem comment_not_left_out : ¬ ∀ (input : InputRules) (rules : BatchRules)
    (lines : List Text) (i : Nat) (line : Text), input.commentMark ≠ [] →
    lines[i]? = some line → input.Comment line →
    ∀ o ∈ (ofLines input rules lines).value.outcomes, o.line ≠ i + 1 := by
  intro always
  have comment : InputRules.Comment ⟨" ;", true⟩ " ;x f()" := ⟨[], "x f()", by simp, rfl⟩
  have outcomes : (ofLines ⟨" ;", true⟩ {} [" ;x f()"]).value.outcomes =
      [⟨1, ";x f()", .ok ⟨none, ";x", "f", []⟩⟩] := by rfl
  have never := always ⟨" ;", true⟩ {} [" ;x f()"] 0 " ;x f()" (by simp) rfl comment
  rw [outcomes] at never
  exact never _ (List.mem_singleton_self _) rfl

end Batch
end MethodLines
