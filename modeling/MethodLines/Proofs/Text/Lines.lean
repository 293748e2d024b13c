import Mathlib.Data.List.DropRight
import MethodLines.Proofs.Text.Pieces
import MethodLines.Text.Blank

/-! Lines of a text, and what is left of a line without the blanks around it. A line feed
ends a line whatever stands before it; so lines that hold none, and whose ends cannot be
taken for a part of a line end, are found again when they are put below one another. -/
namespace MethodLines.Text

variable {c d : Char} {t piece line : Text} {pieces : List Text}

theorem dropFinal_cons (inner : t ≠ [] ∨ d ≠ c) : dropFinal c (d :: t) = d :: dropFinal c t := by
  cases t with
  | nil =>
    have other : d ≠ c := inner.resolve_left (by simp)
    simp [dropFinal, other]
  | cons e t =>
    unfold dropFinal
    rw [List.getLast?_cons_cons, List.dropLast_cons_cons]
    split <;> rfl

theorem mem_of_mem_dropFinal (member : c ∈ dropFinal d t) : c ∈ t := by
  unfold dropFinal at member
  split at member
  · exact List.dropLast_subset t member
  · exact member

theorem lines_cons (plain : c ≠ '\n') (inner : ¬ (c = '\r' ∧ t.head? = some '\n')) :
    lines (c :: t) = prepend c (lines t) := by
  cases t with
  | nil => simp [lines, prepend]
  | cons d t =>
    rw [lines.eq_5]
    · exact plain
    · rintro rest rfl same
      cases same
      exact inner ⟨rfl, rfl⟩
    · simp

theorem lines_append_lineFeed (unbroken : '\n' ∉ piece) (t : Text) :
    lines (piece ++ '\n' :: t) = dropFinal '\r' piece :: lines t := by
  induction piece with
  | nil => rfl
  | cons c piece ih =>
    rw [List.mem_cons, not_or] at unbroken
    obtain ⟨plain, unbroken⟩ := unbroken
    by_cases end_ : c = '\r' ∧ piece = []
    · obtain ⟨rfl, rfl⟩ := end_
      rfl
    · have inner : ¬ (c = '\r' ∧ (piece ++ '\n' :: t).head? = some '\n') := by
        rintro ⟨rfl, feed⟩
        cases piece with
        | nil => exact end_ ⟨rfl, rfl⟩
        | cons d piece =>
          obtain rfl : d = '\n' := by simpa using feed
          exact unbroken List.mem_cons_self
      have kept : piece ≠ [] ∨ c ≠ '\r' := by
        rw [← not_and_or]
        rintro ⟨empty, same⟩
        exact end_ ⟨same, empty⟩
      rw [List.cons_append, lines_cons (Ne.symm plain) inner, ih unbroken, dropFinal_cons kept]
      rfl

theorem lines_of_unbroken (unbroken : '\n' ∉ piece) (filled : piece ≠ []) :
    lines piece = [piece] := by
  induction piece with
  | nil => contradiction
  | cons c piece ih =>
    rw [List.mem_cons, not_or] at unbroken
    obtain ⟨plain, unbroken⟩ := unbroken
    have inner : ¬ (c = '\r' ∧ piece.head? = some '\n') := by
      rintro ⟨_, feed⟩
      exact unbroken (List.mem_of_head? feed)
    rw [lines_cons (Ne.symm plain) inner]
    cases piece with
    | nil => rfl
    | cons d piece =>
      rw [ih unbroken (by simp)]
      rfl

theorem lines_intercalate (unbroken : ∀ piece ∈ pieces, '\n' ∉ piece)
    (filled : ∀ piece ∈ pieces, piece ≠ []) (ended : ∀ piece ∈ pieces, piece.getLast? ≠ some '\r') :
    lines (['\n'].intercalate pieces) = pieces := by
  induction pieces with
  | nil => rfl
  | cons first others ih =>
    rw [List.forall_mem_cons] at unbroken filled ended
    cases others with
    | nil => simpa using lines_of_unbroken unbroken.1 filled.1
    | cons second others =>
      have whole : dropFinal '\r' first = first := by simp [dropFinal, ended.1]
      rw [List.intercalate_cons_cons, List.append_assoc, List.singleton_append,
        lines_append_lineFeed unbroken.1, whole, ih unbroken.2 filled.2 ended.2]

/-- From line feed to line feed: a text without any, or one whose first line is followed by
a text for which this is already known. -/
@[elab_as_elim]
theorem lineFeed_induction {motive : Text → Prop} (unbroken : ∀ t, '\n' ∉ t → motive t)
    (feed : ∀ line t, '\n' ∉ line → motive t → motive (line ++ '\n' :: t)) (t : Text) :
    motive t := by
  induction size : t.length using Nat.strong_induction_on generalizing t with
  | _ size' ih =>
    cases cut : cut? '\n' t with
    | none => exact unbroken t (cut?_eq_none_iff.mp cut)
    | some parts =>
      obtain ⟨line, rest⟩ := parts
      obtain ⟨absent, rfl⟩ := cut?_eq_some_iff.mp cut
      refine feed line rest absent (ih rest.length ?_ rest rfl)
      rw [← size, List.length_append, List.length_cons]
      omega

theorem unbroken_of_mem_lines (member : line ∈ lines t) : '\n' ∉ line := by
  induction t using lineFeed_induction with
  | unbroken t unbroken =>
    by_cases filled : t = []
    · subst filled
      contradiction
    · rw [lines_of_unbroken unbroken filled, List.mem_singleton] at member
      exact member ▸ unbroken
  | feed before after unbroken ih =>
    rw [lines_append_lineFeed unbroken] at member
    rcases List.mem_cons.mp member with rfl | later
    · exact fun inside => unbroken (mem_of_mem_dropFinal inside)
    · exact ih later

theorem trim_eq (t : Text) : trim t = (t.dropWhile isBlank).rdropWhile isBlank := rfl

theorem mem_of_mem_trim (member : c ∈ trim t) : c ∈ t := by
  have inner := (List.rdropWhile_prefix isBlank (t.dropWhile isBlank)).subset member
  exact (List.dropWhile_suffix isBlank).subset inner

theorem isBlank_head_trim (first : (trim t).head? = some c) : isBlank c = false := by
  obtain ⟨rest, kept⟩ := List.rdropWhile_prefix isBlank (t.dropWhile isBlank)
  have start : (t.dropWhile isBlank).head? = some c := by
    rw [← kept, List.head?_append, ← trim_eq, first]
    rfl
  have := List.head?_dropWhile_not isBlank t
  rwa [start] at this

theorem trim_eq_self (first : ∀ c, t.head? = some c → isBlank c = false)
    (last : ∀ c, t.getLast? = some c → isBlank c = false) : trim t = t := by
  have whole : t.dropWhile isBlank = t := by
    cases t with
    | nil => rfl
    | cons c t => exact List.dropWhile_cons_of_neg (by simp [first c rfl])
  rw [trim_eq, whole, List.rdropWhile_eq_self_iff]
  intro filled
  simp [last _ (List.getLast?_eq_some_getLast filled)]

end MethodLines.Text
