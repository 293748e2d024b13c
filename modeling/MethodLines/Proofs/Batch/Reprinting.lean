import MethodLines.Proofs.Batch.Transcript
import MethodLines.Proofs.Signature.RoundTrip
import MethodLines.Proofs.Text.Lines

/-! What was read of a batch can be written down and read again. Each signature has one
line, which holds no line feed because the line it was read from held none, and which
trimming leaves alone: it starts like the trimmed line it was read from, and it ends in a
parenthesis. So the second batch has the same signatures and nothing else. -/
namespace MethodLines

open Text

/-- The lines of the signatures that were read, one below the other. -/
def Report.reprint (r : Report) : Text :=
  ("\n" : Text).intercalate (r.signatures.map fun (_, s) => s.render)

namespace Signature

variable {line : Text} {s : Signature}

theorem getLast?_render (s : Signature) : s.render.getLast? = some ')' := by
  rw [render_eq]
  simp [List.getLast?_cons]

/-- A line that is read differs from the line of its record in the last character at most. -/
theorem render_of_read (accepted : read line = .ok s) :
    s.render = line ∨ s.render = line ++ [')'] := by
  obtain ⟨_, unclosed | whole⟩ := read_iff_parts.mp accepted
  · exact Or.inr (append_close_iff.mpr unclosed).symm
  · exact Or.inl (s.render_eq.trans whole.symm)

theorem unbroken_render (accepted : read line = .ok s) (unbroken : '\n' ∉ line) :
    '\n' ∉ s.render := by
  rcases render_of_read accepted with same | closed
  · rwa [same]
  · simpa [closed] using unbroken

theorem trim_render (accepted : read line.trim = .ok s) : trim s.render = s.render := by
  apply trim_eq_self
  · intro c first
    rcases render_of_read accepted with same | closed
    · rw [same] at first
      exact isBlank_head_trim first
    · rw [closed] at first
      cases start : (trim line).head? with
      | none =>
        obtain rfl : ')' = c := by simpa [start] using first
        decide
      | some d =>
        obtain rfl : d = c := by simpa [start] using first
        exact isBlank_head_trim start
  · intro c last
    rw [getLast?_render] at last
    cases last
    decide

end Signature

namespace Batch

open Signature

variable {number : Nat} {lines : List Text} {records : List Signature}

theorem transcriptFrom_verbatim (number : Nat) (lines : List Text) :
    transcriptFrom .verbatim number lines =
      (lines.zipIdx number).map fun (line, n) => ⟨n, line.trim, read line.trim⟩ := by
  induction lines generalizing number with
  | nil => rfl
  | cons line lines ih =>
    have kept : InputRules.verbatim.skips line = false := rfl
    rw [transcriptFrom, kept, if_neg (by simp), ih]
    rfl

/-- Lines of records that trimming leaves alone are read as these records. -/
theorem runLines_rendered (schedule : Nat → List Nat) (rules : BatchRules)
    (complete : ∀ n, (schedule n).Perm (List.range n))
    (valid : ∀ s ∈ records, s.WellFormed) (trimmed : ∀ s ∈ records, trim s.render = s.render) :
    (runLines schedule .verbatim rules (records.map render)).value =
      ⟨(records.zipIdx 1).map fun (s, n) => ⟨n, s.render, .ok s⟩, false⟩ := by
  have read : transcript .verbatim (records.map render) =
      (records.zipIdx 1).map fun (s, n) => ⟨n, s.render, .ok s⟩ := by
    rw [transcript, transcriptFrom_verbatim, List.zipIdx_map, List.map_map]
    apply List.map_congr_left
    rintro ⟨s, n⟩ place
    have member : s ∈ records := List.fst_mem_of_mem_zipIdx place
    simp [trimmed s member, read_render (valid s member)]
  rw [runLines_value schedule .verbatim rules _ (complete _), read]
  apply reportOn_passed
  intro o member
  obtain ⟨_, _, rfl⟩ := List.mem_map.mp member
  rfl

/-- The signatures of a batch are read again from their lines: each once, in order, from a
line of its own, and nothing else is read. -/
theorem runLines_reprint (schedule later : Nat → List Nat) (input : InputRules)
    (rules again : BatchRules) (text : Text) (complete : ∀ n, (schedule n).Perm (List.range n))
    (completeLater : ∀ n, (later n).Perm (List.range n)) :
    let report := (runLines schedule input rules text.lines).value
    (runLines later .verbatim again report.reprint.lines).value =
      ⟨((report.signatures.map Prod.snd).zipIdx 1).map fun (s, n) => ⟨n, s.render, .ok s⟩,
        false⟩ := by
  intro report
  have origin : ∀ s ∈ report.signatures.map Prod.snd,
      ∃ line ∈ text.lines, read line.trim = .ok s := by
    intro s member
    obtain ⟨⟨number, _⟩, listed, rfl⟩ := List.mem_map.mp member
    exact source_of_mem_signatures complete listed
  have rendered : report.reprint =
      ['\n'].intercalate ((report.signatures.map Prod.snd).map render) := by
    rw [List.map_map]
    rfl
  generalize report.signatures.map Prod.snd = records at origin rendered
  have separate : report.reprint.lines = records.map render := by
    rw [rendered]
    apply lines_intercalate
    all_goals
      intro piece member
      obtain ⟨s, listed, rfl⟩ := List.mem_map.mp member
    · obtain ⟨line, inText, accepted⟩ := origin s listed
      have unbroken := unbroken_of_mem_lines inText
      exact unbroken_render accepted fun inside => unbroken (mem_of_mem_trim inside)
    · intro empty
      have last := getLast?_render s
      rw [empty] at last
      contradiction
    · rw [getLast?_render]
      decide
  rw [separate]
  apply runLines_rendered later again completeLater
  · intro s member
    obtain ⟨line, _, accepted⟩ := origin s member
    exact read_wellFormed accepted
  · intro s member
    obtain ⟨line, _, accepted⟩ := origin s member
    exact trim_render accepted

/-- Both batches run as tasks, the second in reverse. The tab and the carriage return within
a line are parts of tokens, and the line that failed has left its number to the next. -/
theorem runLines_reprint_reversed :
    (∀ n, (List.range n).Perm (List.range n)) ∧ (∀ n, (List.range n).reverse.Perm (List.range n)) ∧
      let report := (runLines List.range {} ⟨true, false⟩
        (Text.lines "\tint\ta b(\r x\r\n# c\nbad\n\u3000public T f(A b, C d)\u0085")).value
      report.outcomes.map Outcome.line = [1, 3, 4] ∧
        (runLines (fun n => (List.range n).reverse) .verbatim ⟨true, true⟩
          report.reprint.lines).value =
          ⟨[⟨1, "int\ta b(\r x)", .ok ⟨none, "int\ta", "b", [⟨"\r", "x"⟩]⟩⟩,
            ⟨2, "public T f(A b, C d)", .ok ⟨some "public", "T", "f", [⟨"A", "b"⟩, ⟨"C", "d"⟩]⟩⟩],
            false⟩ := by
  have forward : ∀ n, (List.range n).Perm (List.range n) := fun n => .refl _
  have backward : ∀ n, (List.range n).reverse.Perm (List.range n) := fun n => List.reverse_perm _
  refine ⟨forward, backward, by rfl, ?_⟩
  rw [runLines_reprint List.range (fun n => (List.range n).reverse) {} ⟨true, false⟩ ⟨true, true⟩ _
    forward backward]
  rfl

end Batch
end MethodLines
