import MethodLines.Proofs.Batch.Transcript
import MethodLines.Proofs.Text.LineEnds

/-! A batch over a text is one over the lines that it was written from, whichever way these
are ended. What a line end can leave on a line or take off it is a carriage return, and a
batch reads lines without the blanks around them; which lines it leaves out depends on no
more than that either. -/
namespace MethodLines

open Text

theorem InputRules.skips_trim (rules : InputRules) (line : Text) :
    rules.skips (trim line) = rules.skips line := by
  simp only [skips, trim_trim]

namespace Batch

variable {lines others : List Text} {text : Text}

/-- Blanks around lines leave no trace in what is read. -/
theorem candidates_map_trim (rules : InputRules) (lines : List Text) :
    candidates rules (lines.map trim) = candidates rules lines := by
  unfold candidates
  generalize 1 = number
  induction lines generalizing number with
  | nil => rfl
  | cons line lines ih =>
    rw [List.map_cons, List.zipIdx_cons, List.zipIdx_cons]
    cases skipped : rules.skips line with
    | true =>
      rw [List.filter_cons_of_neg (by simp [rules.skips_trim, skipped]),
        List.filter_cons_of_neg (by simp [skipped]), ih]
    | false =>
      rw [List.filter_cons_of_pos (by simp [rules.skips_trim, skipped]),
        List.filter_cons_of_pos (by simp [skipped]), List.map_cons, List.map_cons, ih]
      simp only [trim_trim]

theorem runLines_congr (same : lines.map trim = others.map trim) (schedule : Nat → List Nat)
    (input : InputRules) (rules : BatchRules) :
    runLines schedule input rules lines = runLines schedule input rules others := by
  unfold runLines
  rw [← candidates_map_trim input lines, same, candidates_map_trim]

/-- Lines are read alike from a list and from a text that they are written as, with either
line end behind each of them, and none or one behind the last. The log shows no difference;
nor does the report if tasks finish in another order. -/
theorem runLines_written (schedule later : Nat → List Nat) (input : InputRules)
    (rules : BatchRules) (written : Written lines text)
    (complete : ∀ n, (schedule n).Perm (List.range n))
    (completeLater : ∀ n, (later n).Perm (List.range n)) :
    runLines schedule input rules text.lines = runLines schedule input rules lines ∧
      (runLines schedule input rules text.lines).value =
        (runLines later input rules lines).value := by
  have same := runLines_congr written.map_trim_lines schedule input rules
  refine ⟨same, ?_⟩
  rw [same, runLines_value schedule input rules lines (complete _),
    runLines_value later input rules lines (completeLater _)]

/-- Both line ends in one text, and none behind the last line. The first line has its carriage
return taken for a part of its end, and the last one keeps it. -/
theorem runLines_written_mixed :
    let lines : List Text := ["int a()\r", "", " # b", "bad\r"]
    let text : Text := "int a()\r\n\r\n # b\nbad\r"
    let backwards := fun n => (List.range n).reverse
    text.lines ≠ lines ∧ Written lines text ∧ (∀ n, (List.range n).Perm (List.range n)) ∧
      (∀ n, (backwards n).Perm (List.range n)) ∧
      (runLines List.range {} ⟨true, false⟩ text.lines).value =
        (runLines backwards {} ⟨true, false⟩ lines).value ∧
      (runLines backwards {} ⟨true, false⟩ lines).value =
        ⟨[⟨1, "int a()", .ok ⟨none, "int", "a", []⟩⟩, ⟨4, "bad", .error (.unopened "bad")⟩],
          false⟩ := by
  intro lines text backwards
  have written : Written lines text :=
    .feed (by decide) (.returnFeed (by decide) (.feed (by decide)
      (.bare (by decide) (by decide))))
  have forwards : ∀ n, (List.range n).Perm (List.range n) := fun n => .refl _
  have reversed : ∀ n, (backwards n).Perm (List.range n) := fun n => List.reverse_perm _
  exact ⟨by decide, written, forwards, reversed,
    (runLines_written List.range backwards {} ⟨true, false⟩ written forwards reversed).2, rfl⟩

end Batch
end MethodLines
