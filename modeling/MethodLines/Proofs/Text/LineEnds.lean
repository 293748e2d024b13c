import MethodLines.Proofs.Text.Trimming

/-! Ends of lines. A text may be cut behind any of them: the lines of its parts are its
lines. Each line may have either end, and the last one may go without; a carriage return
that this takes off a line, or leaves on it, is one that trimming does not see. -/
namespace MethodLines.Text

variable {t : Text} {pieces : List Text}

inductive Ended : Text → Prop where
  | nil : Ended []
  | line {line t : Text} : '\n' ∉ line → Ended t → Ended (line ++ '\n' :: t)

theorem ended_iff : Ended t ↔ t = [] ∨ t.getLast? = some '\n' := by
  constructor
  · intro ended
    induction ended with
    | nil => exact Or.inl rfl
    | @line line t _ _ ih =>
      right
      rcases ih with rfl | last
      · simp
      · rw [List.getLast?_append, List.getLast?_cons, last]
        rfl
  · induction t using lineFeed_induction with
    | unbroken t unbroken =>
      rintro (rfl | last)
      · exact .nil
      · exact absurd (List.mem_of_getLast? last) unbroken
    | feed line t unbroken ih =>
      intro final
      refine .line unbroken (ih ?_)
      cases t with
      | nil => exact Or.inl rfl
      | cons c t => simpa using final

theorem Ended.lines_append (ended : Ended t) (rest : Text) :
    lines (t ++ rest) = lines t ++ lines rest := by
  induction ended with
  | nil => rfl
  | line unbroken _ ih =>
    rw [List.append_assoc, List.cons_append, lines_append_lineFeed unbroken,
      lines_append_lineFeed unbroken, ih, List.cons_append]

theorem Ended.length_lines (ended : Ended t) : (lines t).length = t.count '\n' := by
  induction ended with
  | nil => rfl
  | line unbroken _ ih =>
    rw [lines_append_lineFeed unbroken, List.length_cons, ih, List.count_append,
      List.count_eq_zero_of_not_mem unbroken, List.count_cons_self, Nat.zero_add]

/-- Lines, and a text that they are written as. Each has an end of either kind, but a last
line that is not empty may have none. -/
inductive Written : List Text → Text → Prop where
  | nil : Written [] []
  | bare {line : Text} : '\n' ∉ line → line ≠ [] → Written [line] line
  | feed {line t : Text} {lines : List Text} : '\n' ∉ line → Written lines t →
      Written (line :: lines) (line ++ "\n" ++ t)
  | returnFeed {line t : Text} {lines : List Text} : '\n' ∉ line → Written lines t →
      Written (line :: lines) (line ++ "\r\n" ++ t)

/-- The lines of a text are those it was written from, up to a carriage return at an end. -/
theorem Written.map_trim_lines (written : Written pieces t) :
    (lines t).map trim = pieces.map trim := by
  induction written with
  | nil => rfl
  | bare unbroken filled => rw [lines_of_unbroken unbroken filled]
  | @feed line t _ unbroken _ ih =>
    have split : line ++ "\n" ++ t = line ++ '\n' :: t := List.append_assoc ..
    rw [split, lines_append_lineFeed unbroken, List.map_cons, List.map_cons, ih,
      trim_dropFinal (by decide)]
  | @returnFeed line t _ unbroken _ ih =>
    have split : line ++ "\r\n" ++ t = line ++ ['\r'] ++ '\n' :: t := by
      rw [List.append_assoc, List.append_assoc]
      rfl
    have unbroken' : '\n' ∉ line ++ ['\r'] := by simpa using unbroken
    rw [split, lines_append_lineFeed unbroken', dropFinal_append, List.map_cons, List.map_cons, ih]

end MethodLines.Text
