import MethodLines.Proofs.Batch.Reprinting
import MethodLines.Proofs.Report.Cells
import MethodLines.Proofs.Signature.Defects
import MethodLines.Proofs.Signature.Messages
import MethodLines.Report.Writing

/-! The Markdown form of a report, line by line. No write of it breaks a line, because what
was read off a line and what is said of a line that was rejected hold no more line feeds than
the line. The note that lines were left out stands below the failures, and never stands
without one, because a batch stops at a failure only. -/
namespace MethodLines

open Text

namespace Signature

variable {line : Text} {s : Signature} {e : Rejection}

/-- What is rejected is a part of the line. -/
theorem unbroken_offending (rejected : read line = .error e) (unbroken : '\n' ∉ line) :
    '\n' ∉ e.offending := by
  have opened {head rest : Text} (parts : Opened line head rest) : '\n' ∉ head ∧ '\n' ∉ rest := by
    rw [parts.2, List.mem_append, List.mem_cons, not_or, not_or] at unbroken
    exact ⟨unbroken.1, unbroken.2.2⟩
  cases defect_of_error rejected with
  | unopened => exact unbroken
  | tokenCount parts => exact (opened parts).1
  | emptyToken parts => exact (opened parts).1
  | reopened parts => exact (opened parts).2
  | closedWithin parts => exact (opened parts).2
  | @argument head rest body fragment before after parts unclosed _ cut =>
    intro inside
    have inBody : '\n' ∈ body := by
      rw [← cut.joined, mem_intercalate (by decide)]
      exact ⟨fragment, by simp, inside⟩
    rw [← unclosed_iff_dropFinal.mp unclosed] at inBody
    exact (opened parts).2 (mem_of_mem_dropFinal inBody)

end Signature

namespace Report

variable {r : Report}

def tableTop : List Text :=
  ["## Signatures", "", "| Line | Modifier | Return | Name | Arguments |",
   "|------|----------|--------|------|-----------|"]

def sectionTitle : Text := "## Errors"

def stopNotice : Text := "_Stopped at the first error._"

def failureLine (line : Nat) (e : Rejection) : Text :=
  "- line " ++ Text.decimal line ++ " \x60" ++ e.code ++ "\x60: " ++ e.message

/-- The lines about failures, of which there are none without a failure. -/
def sectionLines (r : Report) : List Text :=
  if r.hasFailures then
    [sectionTitle, []] ++ r.failures.map (fun (o, e) => failureLine o.line e) ++
      (if r.stoppedEarly then [[], stopNotice] else []) ++ [[]]
  else []

def markdownLines (r : Report) : List Text :=
  tableTop ++ r.signatures.map (fun (line, s) => rowLine line s) ++ [[]] ++ r.sectionLines

theorem row_eq (line : Nat) (s : Signature) :
    row (cells line s) = rowLine line s ++ ['\n'] := by
  rw [row, rowLine, List.append_assoc, List.append_assoc, List.append_assoc]
  rfl

theorem failureSection_eq (r : Report) :
    r.failureSection = r.sectionLines.map (· ++ ['\n']) := by
  unfold failureSection sectionLines
  split
  · rw [List.map_append, List.map_append, List.map_append, List.map_map]
    split <;> rfl
  · rfl

/-- Each write of the Markdown form is a line. -/
theorem markdown_eq (r : Report) : r.markdown = r.markdownLines.map (· ++ ['\n']) := by
  have top : tableHead = tableTop.map (· ++ ['\n']) := by decide
  have rows : r.signatures.map (fun (line, s) => row (cells line s)) =
      (r.signatures.map fun (line, s) => rowLine line s).map (· ++ ['\n']) := by
    rw [List.map_map]
    exact List.map_congr_left fun entry _ => row_eq entry.1 entry.2
  rw [markdown, top, rows, failureSection_eq, markdownLines, List.map_append, List.map_append,
    List.map_append]
  rfl

theorem unbroken_quoted {t : Text} : '\n' ∉ quoted t ↔ '\n' ∉ t := by
  simp [quoted]

theorem unbroken_shownArguments {arguments : List Argument}
    (unbroken : ∀ a ∈ arguments, '\n' ∉ a.render) : '\n' ∉ shownArguments arguments := by
  unfold shownArguments
  split
  · decide
  · show '\n' ∉ ([',', ' '] : Text).intercalate _
    rw [mem_intercalate (by decide)]
    rintro ⟨piece, member, inside⟩
    obtain ⟨a, listed, rfl⟩ := List.mem_map.mp member
    exact unbroken_quoted.mpr (unbroken a listed) inside

theorem unbroken_shown {line : Nat} {s : Signature} (unbroken : '\n' ∉ s.render) :
    ∀ t ∈ shown line s, '\n' ∉ t := by
  rw [Signature.render_eq, List.mem_append, List.mem_cons, List.mem_append, not_or, not_or,
    not_or, Signature.head_eq, Signature.body_eq, mem_intercalate (by decide),
    mem_intercalate (by decide)] at unbroken
  obtain ⟨tokens, -, arguments, -⟩ := unbroken
  have token : ∀ t ∈ s.tokens, '\n' ∉ t := fun t member inside => tokens ⟨t, member, inside⟩
  have argument : ∀ a ∈ s.arguments, '\n' ∉ a.render := fun a member inside =>
    arguments ⟨a.render, List.mem_map_of_mem member, inside⟩
  intro t member
  simp only [shown, List.mem_cons, List.not_mem_nil, or_false] at member
  rcases member with rfl | rfl | rfl | rfl | rfl
  · exact Json.Draft.not_mem_decimal (by decide) line
  · cases modifier : s.modifier with
    | none => decide
    | some m => exact token m (by simp [Signature.tokens, modifier])
  · exact unbroken_quoted.mpr (token _ (by simp [Signature.tokens]))
  · exact unbroken_quoted.mpr (token _ (by simp [Signature.tokens]))
  · exact unbroken_shownArguments argument

theorem unbroken_rowLine (line : Nat) {s : Signature} (unbroken : '\n' ∉ s.render) :
    '\n' ∉ rowLine line s := by
  rw [rowLine, cells_eq, List.mem_append, List.mem_append, not_or, not_or]
  refine ⟨⟨by decide, ?_⟩, by decide⟩
  show '\n' ∉ ([' ', '|', ' '] : Text).intercalate _
  rw [mem_intercalate (by decide)]
  rintro ⟨piece, member, inside⟩
  obtain ⟨t, listed, rfl⟩ := List.mem_map.mp member
  exact unbroken_shown unbroken t listed (mem_of_mem_cell (by decide) inside)

theorem unbroken_failureLine (line : Nat) {e : Rejection} (unbroken : '\n' ∉ e.message) :
    '\n' ∉ failureLine line e := by
  have number : '\n' ∉ Text.decimal line := Json.Draft.not_mem_decimal (by decide) line
  have code : '\n' ∉ e.code := by cases e <;> exact of_decide_eq_false rfl
  unfold failureLine
  rw [List.mem_append, not_or, List.mem_append, not_or, List.mem_append, not_or,
    List.mem_append, not_or, List.mem_append, not_or]
  exact ⟨⟨⟨⟨⟨by decide, number⟩, by decide⟩, code⟩, by decide⟩, unbroken⟩

theorem mem_sectionLines {t : Text} : t ∈ r.sectionLines ↔ r.hasFailures = true ∧
    (t = sectionTitle ∨ t = [] ∨ (∃ o e, (o, e) ∈ r.failures ∧ t = failureLine o.line e) ∨
      (r.stoppedEarly = true ∧ t = stopNotice)) := by
  have items : t ∈ r.failures.map (fun (o, e) => failureLine o.line e) ↔
      ∃ o e, (o, e) ∈ r.failures ∧ t = failureLine o.line e := by
    simp only [List.mem_map, Prod.exists, eq_comm]
  have note : t ∈ (if r.stoppedEarly then [[], stopNotice] else []) ↔
      r.stoppedEarly = true ∧ (t = [] ∨ t = stopNotice) := by
    cases r.stoppedEarly <;> simp
  unfold sectionLines
  split
  · rename_i failed
    rw [List.mem_append, List.mem_append, List.mem_append, List.mem_pair, items, note,
      List.mem_singleton]
    constructor
    · rintro ((((title | blank) | item) | ⟨stopped, blank | notice⟩) | blank)
      · exact ⟨failed, .inl title⟩
      · exact ⟨failed, .inr (.inl blank)⟩
      · exact ⟨failed, .inr (.inr (.inl item))⟩
      · exact ⟨failed, .inr (.inl blank)⟩
      · exact ⟨failed, .inr (.inr (.inr ⟨stopped, notice⟩))⟩
      · exact ⟨failed, .inr (.inl blank)⟩
    · rintro ⟨_, title | blank | item | ⟨stopped, notice⟩⟩
      · exact .inl (.inl (.inl (.inl title)))
      · exact .inr blank
      · exact .inl (.inl (.inr item))
      · exact .inl (.inr ⟨stopped, .inr notice⟩)
  · rename_i passed
    simp [passed]

theorem mem_markdownLines {t : Text} : t ∈ r.markdownLines ↔
    t ∈ tableTop ∨ (∃ line s, (line, s) ∈ r.signatures ∧ t = rowLine line s) ∨ t = [] ∨
      t ∈ r.sectionLines := by
  have rows : t ∈ r.signatures.map (fun (line, s) => rowLine line s) ↔
      ∃ line s, (line, s) ∈ r.signatures ∧ t = rowLine line s := by
    simp only [List.mem_map, Prod.exists, eq_comm]
  rw [markdownLines, List.mem_append, List.mem_append, List.mem_append, rows, List.mem_singleton,
    or_assoc, or_assoc]

/-- No line is broken if no signature and no message is. -/
theorem unbroken_markdownLines
    (signatures : ∀ line s, (line, s) ∈ r.signatures → '\n' ∉ s.render)
    (failures : ∀ o e, (o, e) ∈ r.failures → '\n' ∉ e.message) :
    ∀ t ∈ r.markdownLines, '\n' ∉ t := by
  intro t member
  rcases mem_markdownLines.mp member with top | ⟨line, s, listed, rfl⟩ | rfl | failed
  · exact (show ∀ t ∈ tableTop, '\n' ∉ t by decide) t top
  · exact unbroken_rowLine line (signatures line s listed)
  · decide
  · rcases (mem_sectionLines.mp failed).2 with rfl | rfl | ⟨o, e, listed, rfl⟩ | ⟨_, rfl⟩
    · decide
    · decide
    · exact unbroken_failureLine o.line (failures o e listed)
    · decide

theorem splitOn_rendered_markdown (color : Bool)
    (signatures : ∀ line s, (line, s) ∈ r.signatures → '\n' ∉ s.render)
    (failures : ∀ o e, (o, e) ∈ r.failures → '\n' ∉ e.message) :
    (r.rendered .markdown color).splitOn '\n' = r.markdownLines ++ [[]] := by
  have flat : r.rendered .markdown color = (r.markdownLines.map (· ++ ['\n'])).flatten := by
    rw [← markdown_eq]
    rfl
  rw [flat]
  exact splitOn_flatten (unbroken_markdownLines signatures failures)

theorem sectionTitle_mem_iff : sectionTitle ∈ r.markdownLines ↔ r.hasFailures = true := by
  rw [mem_markdownLines, mem_sectionLines]
  constructor
  · rintro (top | ⟨line, s, _, same⟩ | same | ⟨failed, _⟩)
    · exact absurd top (by decide)
    · cases same
    · cases same
    · exact failed
  · intro failed
    exact Or.inr (Or.inr (Or.inr ⟨failed, Or.inl rfl⟩))

theorem stopNotice_mem_iff (behind : r.stoppedEarly = true → r.hasFailures = true) :
    stopNotice ∈ r.markdownLines ↔ r.stoppedEarly = true := by
  rw [mem_markdownLines, mem_sectionLines]
  constructor
  · rintro (top | ⟨line, s, _, same⟩ | same | ⟨_, same | same | ⟨o, e, _, same⟩ | ⟨stopped, _⟩⟩)
    · exact absurd top (by decide)
    · cases same
    · cases same
    · cases same
    · cases same
    · cases same
    · exact stopped
  · intro stopped
    exact Or.inr (Or.inr (Or.inr ⟨behind stopped, Or.inr (Or.inr (Or.inr ⟨stopped, rfl⟩))⟩))

end Report

namespace Batch

variable {schedule : Nat → List Nat} {input : InputRules} {rules : BatchRules} {text : Text}

theorem unbroken_of_mem_signatures {line : Nat} {s : Signature}
    (complete : ∀ n, (schedule n).Perm (List.range n))
    (member : (line, s) ∈ (runLines schedule input rules text.lines).value.signatures) :
    '\n' ∉ s.render := by
  obtain ⟨source, inText, accepted⟩ := source_of_mem_signatures complete member
  have unbroken := unbroken_of_mem_lines inText
  exact Signature.unbroken_render accepted fun inside => unbroken (mem_of_mem_trim inside)

theorem unbroken_of_mem_failures {o : Outcome} {e : Rejection}
    (complete : ∀ n, (schedule n).Perm (List.range n))
    (member : (o, e) ∈ (runLines schedule input rules text.lines).value.failures) :
    '\n' ∉ e.message := by
  obtain ⟨source, inText, rejected⟩ := source_of_mem_failures complete member
  have unbroken := unbroken_of_mem_lines inText
  apply Rejection.not_mem_message (by decide)
  exact Signature.unbroken_offending rejected fun inside => unbroken (mem_of_mem_trim inside)

theorem runLines_stoppedEarly (complete : ∀ n, (schedule n).Perm (List.range n))
    (stopped : (runLines schedule input rules text.lines).value.stoppedEarly = true) :
    (runLines schedule input rules text.lines).value.hasFailures = true := by
  rw [runLines_value schedule input rules text.lines (complete _)] at stopped ⊢
  exact hasFailures_of_stoppedEarly rules.failFast _ stopped

end Batch

namespace Report

/-- The Markdown form of a batch's report is a table with one row for each signature, in order,
and a section about the failures if there are any. The pieces of a row between its bare pipes,
without the blanks around them and without the marks in them, say what the row shows; so rows
are told apart by line and record, but for a modifier that is shown as a dash. The note that
lines were left out is there exactly if they were. -/
theorem table_intact (schedule : Nat → List Nat) (input : InputRules) (rules : BatchRules)
    (text : Text) (color : Bool) (complete : ∀ n, (schedule n).Perm (List.range n)) :
    let report := (Batch.runLines schedule input rules text.lines).value
    let lines := (report.rendered .markdown color).splitOn '\n'
    lines = tableTop ++ report.signatures.map (fun (line, s) => rowLine line s) ++ [[]] ++
        report.sectionLines ++ [[]] ∧
      (∀ line s, (line, s) ∈ report.signatures →
        (∃ pieces : List Text, pieces.length = 5 ∧ pieces.map unescape = shown line s ∧
          splitBare false (rowLine line s) =
            [] :: pieces.map (fun t => ' ' :: (t ++ [' '])) ++ [[]]) ∧
        s.WellFormed ∧ ∀ line' s', s'.WellFormed → (rowLine line s = rowLine line' s' ↔
          line = line' ∧ s.modifier.getD "-" = s'.modifier.getD "-" ∧
            s.returnType = s'.returnType ∧ s.name = s'.name ∧ s.arguments = s'.arguments)) ∧
      (sectionTitle ∈ lines ↔ ∃ o ∈ report.outcomes, o.failed = true) ∧
      (stopNotice ∈ lines ↔ report.stoppedEarly = true) := by
  have split := splitOn_rendered_markdown color
    (r := (Batch.runLines schedule input rules text.lines).value)
    (fun _ _ => Batch.unbroken_of_mem_signatures complete)
    (fun _ _ => Batch.unbroken_of_mem_failures complete)
  have title : sectionTitle ∉ ([[]] : List Text) := by decide
  have notice : stopNotice ∉ ([[]] : List Text) := by decide
  refine ⟨split, ?_, ?_, ?_⟩
  · intro line s member
    have valid := Batch.wellFormed_of_mem_signatures complete member
    refine ⟨⟨cells line s, rfl, unescape_cells line s, splitBare_rowLine line s⟩, valid, ?_⟩
    intro line' s' valid'
    rw [rowLine_inj, shown_inj valid valid']
  · rw [split, List.mem_append, or_iff_left title, sectionTitle_mem_iff, hasFailures,
      List.any_eq_true]
  · rw [split, List.mem_append, or_iff_left notice,
      stopNotice_mem_iff (Batch.runLines_stoppedEarly complete)]

/-- Tasks that finish in reverse order. The tokens hold pipes with and without a backslash
before them, backticks and commas, and one of two modifiers is the dash of the other. -/
theorem table_intact_marks :
    (∀ n, (List.range n).reverse.Perm (List.range n)) ∧
      let text : Text := "a|b c\\|d(e\x60 f\x60,, \x60g h)\n- x -\\()\nbad\nint z()"
      let report := (Batch.runLines (fun n => (List.range n).reverse) {} ⟨true, true⟩
        text.lines).value
      (report.rendered .markdown false).splitOn '\n' = [
        "## Signatures", "", "| Line | Modifier | Return | Name | Arguments |",
        "|------|----------|--------|------|-----------|",
        "| 1 | - | \x60a\\|b\x60 | \x60c\\\\|d\x60 | \x60e\x60 f\x60,\x60, \x60\x60g h\x60 |",
        "| 2 | - | \x60x\x60 | \x60-\\\x60 | - |", "", "## Errors", "",
        "- line 3 \x60E010\x60: missing '(' in signature 'bad'", "",
        "_Stopped at the first error._", "", ""] := by
  have backward : ∀ n, (List.range n).reverse.Perm (List.range n) := fun n => List.reverse_perm _
  refine ⟨backward, ?_⟩
  have table := table_intact (fun n => (List.range n).reverse) {} ⟨true, true⟩
    "a|b c\\|d(e\x60 f\x60,, \x60g h)\n- x -\\()\nbad\nint z()" false backward
  exact table.1.trans (by rfl)

end Report
end MethodLines
