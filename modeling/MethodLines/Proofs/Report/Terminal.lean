import MethodLines.Proofs.Signature.Messages
import MethodLines.Proofs.Styling
import MethodLines.Report.Writing

/-! The terminal form of a report. Without colour it is made of the texts that records and
rejections have everywhere, and colour adds style sequences to it and changes nothing else. -/
namespace MethodLines

open Ansi

namespace Report

variable {color : Bool} {s : Signature} {e : Rejection} {o : Outcome} {r : Report}

def signatureTexts (s : Signature) : List Text :=
  s.tokens ++ s.arguments.flatMap fun a => [a.type, a.name]

def outcomeTexts (o : Outcome) : List Text :=
  o.source :: match o.result with
    | .ok s => signatureTexts s
    | .error e => [e.offending]

/-- What came of a line, in the words that records and rejections have everywhere. -/
def plainResult : Except Rejection Signature → Text
  | .ok s => s.render
  | .error e => "[" ++ e.code ++ "] " ++ e.message

/-- The line of an outcome without colour. The number is filled up to four characters. -/
def plainLine (o : Outcome) : Text :=
  List.replicate (4 - (Text.decimal o.line).length) ' ' ++ Text.decimal o.line ++ "  " ++
    plainResult o.result ++ "\n"

def plainSummary (r : Report) : Text :=
  Text.decimal (r.outcomes.countP fun o => !o.failed) ++ " parsed, " ++
    Text.decimal (r.outcomes.countP Outcome.failed) ++ " failed\n"

def plainStop (r : Report) : Text :=
  if r.stoppedEarly then "stopped at the first error\n" else []

theorem length_signatures (r : Report) :
    r.signatures.length = r.outcomes.countP fun o => !o.failed := by
  unfold signatures
  induction r.outcomes with
  | nil => rfl
  | cons x rest ih =>
    rw [List.filterMap_cons, List.countP_cons, ← ih]
    unfold Outcome.failed
    cases x.result with
    | ok s => simp [Except.toOption]
    | error e => simp [Except.toOption]

theorem length_failures (r : Report) : r.failures.length = r.outcomes.countP Outcome.failed := by
  unfold failures
  induction r.outcomes with
  | nil => rfl
  | cons x rest ih =>
    rw [List.filterMap_cons, List.countP_cons, ← ih]
    unfold rejection? Outcome.failed
    cases x.result with
    | ok s => simp
    | error e => simp

theorem summary_eq (r : Report) : r.summary ++ "\n" = plainSummary r := by
  rw [summary, length_signatures, length_failures, plainSummary]
  simp only [List.append_assoc]
  rfl

/-- The signature without colour is its line. -/
theorem paintedSignature_false (s : Signature) : paintedSignature false s = s.render := by
  have arguments : s.arguments.map (paintedArgument false) = s.arguments.map Argument.render := rfl
  obtain ⟨modifier, returnType, name, args⟩ := s
  unfold paintedSignature Signature.render Signature.head Signature.body Signature.tokens
  rw [arguments]
  cases modifier with
  | none => simp [paint, List.intercalate]
  | some m => simp [paint, List.intercalate]

theorem outcomeLine_false (o : Outcome) : outcomeLine false o = plainLine o := by
  unfold outcomeLine plainLine
  cases o.result with
  | ok s =>
    show _ ++ paintedSignature false s ++ _ = _
    rw [paintedSignature_false]
    rfl
  | error e =>
    show _ ++ paintedRejection false e ++ _ = _
    simp [paintedRejection, plainResult, paint, Text.padLeft]

theorem rendered_terminal (color : Bool) (r : Report) :
    r.rendered .terminal color = r.outcomes.flatMap (outcomeLine color) ++
      (paint color (if r.hasFailures then .yellow else .green) r.summary ++ "\n") ++
      if r.stoppedEarly then paint color .yellow "stopped at the first error" ++ "\n" else [] := by
  show (r.outcomes.map (outcomeLine color) ++ [_] ++ _).flatten = _
  rw [List.flatten_append, List.flatten_append, List.flatMap_def, List.flatten_singleton]
  cases r.stoppedEarly with
  | true => rw [if_pos rfl, if_pos rfl, List.flatten_singleton]
  | false => rfl

theorem rendered_terminal_false (r : Report) :
    r.rendered .terminal false = r.outcomes.flatMap plainLine ++ plainSummary r ++ plainStop r := by
  rw [rendered_terminal, ← summary_eq, funext outcomeLine_false]
  rfl

theorem styled_paintedArgument {a : Argument} (typed : escapeChar ∉ a.type)
    (named : escapeChar ∉ a.name) : Styled (paintedArgument true a) a.render :=
  ((styled_paint .cyan typed).append (styled_of_not_mem (by decide))).append
    (styled_of_not_mem named)

theorem styled_arguments {args : List Argument}
    (free : ∀ a ∈ args, escapeChar ∉ a.type ∧ escapeChar ∉ a.name) :
    Styled ((", " : Text).intercalate (args.map (paintedArgument true)))
      ((", " : Text).intercalate (args.map (paintedArgument false))) := by
  apply Styled.intercalate (by decide)
  rw [List.forall₂_map_left_iff, List.forall₂_map_right_iff, List.forall₂_same]
  intro a member
  exact styled_paintedArgument (free a member).1 (free a member).2

/-- The access modifier in front of a signature. -/
def paintedModifier (color : Bool) : Option Text → Text
  | none => []
  | some m => paint color .magenta m ++ " "

theorem styled_modifier {modifier : Option Text} (free : ∀ m ∈ modifier.toList, escapeChar ∉ m) :
    Styled (paintedModifier true modifier) (paintedModifier false modifier) := by
  cases modifier with
  | none => exact fun _ => rfl
  | some m =>
    exact (styled_paint .magenta (free m (by simp))).append (styled_of_not_mem (by decide))

theorem styled_paintedSignature (free : ∀ t ∈ signatureTexts s, escapeChar ∉ t) :
    Styled (paintedSignature true s) (paintedSignature false s) := by
  obtain ⟨tokens, parts⟩ := List.forall_mem_append.mp free
  obtain ⟨front, others⟩ := List.forall_mem_append.mp tokens
  have arguments := styled_arguments fun a member =>
    ⟨parts a.type (List.mem_flatMap.mpr ⟨a, member, by simp⟩),
      parts a.name (List.mem_flatMap.mpr ⟨a, member, by simp⟩)⟩
  have blank : Styled (" " : Text) " " := styled_of_not_mem (by decide)
  have returned := styled_paint .cyan (others s.returnType (by simp))
  have named := styled_paint .bold (others s.name (by simp))
  have opening : Styled ("(" : Text) "(" := styled_of_not_mem (by decide)
  have closing : Styled (")" : Text) ")" := styled_of_not_mem (by decide)
  exact ((((((styled_modifier front).append returned).append blank).append named).append
    opening).append
    arguments).append closing

theorem styled_paintedRejection (free : escapeChar ∉ e.offending) :
    Styled (paintedRejection true e) (paintedRejection false e) := by
  have code : escapeChar ∉ ("[" : Text) ++ e.code ++ "]" := by
    unfold Rejection.code
    split <;> decide
  have message := Rejection.not_mem_message (by decide) free
  exact ((styled_paint .boldRed code).append (styled_of_not_mem (by decide))).append
    (styled_paint .red message)

def paintedResult (color : Bool) : Except Rejection Signature → Text
  | .ok s => paintedSignature color s
  | .error e => paintedRejection color e

theorem styled_outcomeLine (free : ∀ t ∈ outcomeTexts o, escapeChar ∉ t) :
    Styled (outcomeLine true o) (outcomeLine false o) := by
  have number : escapeChar ∉ (Text.decimal o.line).padLeft 4 := by
    rw [Text.padLeft, List.mem_append, not_or]
    exact ⟨fun inside => absurd (List.eq_of_mem_replicate inside) (by decide),
      Json.Draft.not_mem_decimal (by decide) o.line⟩
  have result : Styled (paintedResult true o.result) (paintedResult false o.result) := by
    obtain ⟨_, parts⟩ := List.forall_mem_cons.mp free
    cases shown : o.result with
    | ok s =>
      rw [shown] at parts
      exact styled_paintedSignature parts
    | error e =>
      rw [shown] at parts
      exact styled_paintedRejection (parts e.offending List.mem_cons_self)
  have gap : Styled ("  " : Text) "  " := styled_of_not_mem (by decide)
  have lineEnd : Styled ("\n" : Text) "\n" := styled_of_not_mem (by decide)
  exact (((styled_paint .dimmed number).append gap).append result).append lineEnd

theorem escapeChar_not_mem_summary (r : Report) : escapeChar ∉ r.summary := by
  have number := Json.Draft.not_mem_decimal (show escapeChar.isDigit = false by decide)
  rw [summary, List.mem_append, List.mem_append, List.mem_append, not_or, not_or, not_or]
  exact ⟨⟨⟨number _, by decide⟩, number _⟩, by decide⟩

/-- The terminal form without colour is a line for each outcome in order, which shows what the
line is rendered as or why it was rejected, then the numbers of both, and a note if lines were
left out. With colour it is the same text once the style sequences are taken out of it, for
every report that has no escape characters of its own. -/
theorem terminal_styled (r : Report) :
    r.rendered .terminal false = r.outcomes.flatMap plainLine ++ plainSummary r ++ plainStop r ∧
      ((∀ o ∈ r.outcomes, ∀ t ∈ outcomeTexts o, escapeChar ∉ t) →
        unstyled (r.rendered .terminal true) = r.rendered .terminal false) := by
  refine ⟨rendered_terminal_false r, fun free => Styled.unstyled_eq ?_⟩
  have lineEnd : Styled (['\n'] : Text) ['\n'] := styled_of_not_mem (by decide)
  have lines := Styled.flatMap fun o member => styled_outcomeLine (free o member)
  have summary := fun style =>
    (styled_paint style (escapeChar_not_mem_summary r)).append lineEnd
  have stop := (styled_paint .yellow (t := "stopped at the first error") (by decide)).append lineEnd
  rw [rendered_terminal, rendered_terminal]
  refine (lines.append (summary _)).append ?_
  cases r.stoppedEarly with
  | true => exact stop
  | false => exact fun _ => rfl

/-- A record with an empty token, put together by hand, and a number of more than four digits. -/
theorem terminal_styled_unchecked :
    let r : Report := ⟨[
      ⟨7, "x", .ok ⟨some "static", "int", "", [⟨"a", "b"⟩, ⟨"", "c"⟩]⟩⟩,
      ⟨12345, "run", .error (.unopened "run")⟩], true⟩
    (∀ o ∈ r.outcomes, ∀ t ∈ outcomeTexts o, escapeChar ∉ t) ∧
      unstyled (r.rendered .terminal true) =
        ("   7  static int (a b,  c)\n12345  [E010] missing '(' in signature 'run'\n" ++
          "1 parsed, 1 failed\nstopped at the first error\n" : Text) := by
  intro r
  have free : ∀ o ∈ r.outcomes, ∀ t ∈ outcomeTexts o, escapeChar ∉ t := by decide
  exact ⟨free, ((terminal_styled r).2 free).trans (by decide +kernel)⟩

end Report
end MethodLines
