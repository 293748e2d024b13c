import MethodLines.Proofs.Batch.Transcript
import MethodLines.Proofs.Command.Reporting

/-! What a report depends on. It is told by the text that is read, the rules for leaving lines
out, and whether the first failure ends it; of these, signatures that are given with the
options leave only the last open. How the batch runs and how the report will be written
leave no trace in it. -/
namespace MethodLines.Reporting

open World Batch

variable {w : World} {o : Options} {s : Settings}

def collected (w : World) (o : Options) (s : Settings) : Except Failure Report :=
  ((collect o (o.override s) : StateM World _).run w).1

def fetched (w : World) (o : Options) : Except Failure Text := ((fetch o).run w).1

theorem ofLines_value (input : InputRules) (rules : BatchRules) (lines : List Text) :
    (ofLines input rules lines).value = reportOn rules.failFast (transcript input lines) :=
  runLines_value List.range input rules lines (.refl _)

theorem override_failFast (o : Options) (s : Settings) :
    (o.override s).batch.failFast = (o.failFast || s.batch.failFast) :=
  Bool.or_comm _ _

theorem collected_of_given (given : o.signatures ≠ []) : collected w o s =
    .ok (reportOn (o.failFast || s.batch.failFast) (transcript .verbatim o.signatures)) := by
  obtain ⟨records, ran⟩ := run_collect_reported (.given given : Reported w o (o.override s) _)
  unfold collected
  rw [ran, ← override_failFast]
  exact congrArg Except.ok (ofLines_value .verbatim (o.override s).batch o.signatures)

theorem collected_of_none_given (given : o.signatures = []) : collected w o s =
    (fetched w o).map fun text =>
      reportOn (o.failFast || s.batch.failFast) (transcript s.input text.lines) := by
  unfold collected fetched
  obtain ⟨wrap, fetching⟩ := run_fetch w o
  rw [collect_of_none_given given, run_bind, fetching]
  cases (decode (source w o)).mapError wrap with
  | error failure => rfl
  | ok text =>
    show ((emitting _ >>= _ : StateM World _).run w).1 = Except.ok _
    rw [run_bind, run_emitting, ← override_failFast]
    exact congrArg Except.ok (ofLines_value s.input (o.override s).batch text.lines)

theorem fetched_of_bytes {text : Text} (found : source w o = .ok text.bytes) :
    fetched w o = .ok text := by
  obtain ⟨wrap, fetching⟩ := run_fetch w o
  unfold fetched
  rw [fetching, decode_ok found (Text.ofBytes?_bytes text)]
  rfl

/-- The text that is read depends on nothing in the options but the input they name. -/
theorem fetched_congr {o' : Options} (input : o'.input = o.input) (w : World) :
    fetched w o' = fetched w o := by
  unfold fetched fetch
  rw [input]

/-- Neither the form of a report nor its destination changes what is in it, and a parallel
batch collects what a sequential one does, failures to read included. For signatures that
are given with the options, no file, no input and no rule for leaving lines out counts.
Failing fast may be asked for in either place. -/
theorem collect_independent (w : World) (o : Options) (s : Settings) :
    (∀ o' s', o'.signatures = o.signatures → o'.input = o.input → s'.input = s.input →
      (o'.failFast || s'.batch.failFast) = (o.failFast || s.batch.failFast) →
      collected w o' s' = collected w o s) ∧
    (o.signatures ≠ [] → ∀ w' o' s', o'.signatures = o.signatures →
      (o'.failFast || s'.batch.failFast) = (o.failFast || s.batch.failFast) →
      collected w' o' s' = collected w o s) := by
  have given : o.signatures ≠ [] → ∀ w' o' s', o'.signatures = o.signatures →
      (o'.failFast || s'.batch.failFast) = (o.failFast || s.batch.failFast) →
      collected w' o' s' = collected w o s := by
    intro given w' o' s' signatures failFast
    have given' : o'.signatures ≠ [] := signatures ▸ given
    rw [collected_of_given given, collected_of_given given', signatures, failFast]
  refine ⟨?_, given⟩
  intro o' s' signatures input rules failFast
  by_cases absent : o.signatures = []
  · have absent' : o'.signatures = [] := signatures.trans absent
    rw [collected_of_none_given absent, collected_of_none_given absent', fetched_congr input,
      rules, failFast]
  · exact given absent w o' s' signatures failFast

/-- A sequential batch that the options make fail fast, for a JSON file, collects what a
parallel one does that the settings make fail fast. Signatures that are given are reported
alike without the file that is named beside them. -/
theorem collect_independent_of_form :
    let w : World := { tree := ⟨[(["in.txt"], .file (Text.bytes "int a()\n# b\nbad\nint c()\n"))]⟩ }
    let o : Options := { input := some "in.txt" }
    let o' : Options := { input := some "in.txt", format := some .json, output := some "out",
                          failFast := true, sequential := true, plain := true }
    let s : Settings := { batch := ⟨true, true⟩, output := ⟨some .markdown, some true⟩ }
    let given : Options := { signatures := ["# b", "int a()"] }
    let given' : Options := { signatures := ["# b", "int a()"], input := some "in.txt" }
    (o'.failFast || false) = (o.failFast || s.batch.failFast) ∧
      collected w o' {} = collected w o s ∧
      (collected w o s).map (fun r => r.outcomes.map Outcome.line) = .ok [1, 3] ∧
      given.signatures ≠ [] ∧
      collected { tree := ⟨[]⟩ } given' { input := ⟨"int", true⟩ } = collected w given {} := by
  intro w o o' s given given'
  have text : fetched w o = .ok "int a()\n# b\nbad\nint c()\n" := fetched_of_bytes rfl
  have lines : (collected w o s).map (fun r => r.outcomes.map Outcome.line) = .ok [1, 3] := by
    rw [collected_of_none_given rfl, text]
    rfl
  exact ⟨rfl, (collect_independent w o s).1 o' {} rfl rfl rfl rfl, lines, by simp [given],
    (collect_independent w given {}).2 (by simp [given]) _ given' _ rfl rfl⟩

end MethodLines.Reporting
