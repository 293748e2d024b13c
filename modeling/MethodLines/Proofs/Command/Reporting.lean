import Mathlib.Tactic.Push
import MethodLines.Command.Reporting
import MethodLines.Proofs.Host
import MethodLines.Proofs.Report.Delivery
import MethodLines.Proofs.Report.Terminal

/-! What a run does to the world. The report is collected first, from the world as it was;
only then is a file created, which empties it, and written. So a run that fails before it
can write leaves all files as they were, the input is read in full also when the report
replaces it, and rejected signatures do not keep the report back. -/
namespace MethodLines.Reporting

open World

variable {o : Options} {s : Settings} {w after : World} {report : Report} {text path : Text}
  {place : Place} {fault : FileFault} {bytes : ByteArray}

/-- Where signatures are read from if none are given with the options: a file, or the
standard input, which a single dash stands for. -/
def source (w : World) (o : Options) : Except FileFault ByteArray :=
  match o.input with
  | none => .ok w.input
  | some path => if Path.same path ['-'] then .ok w.input else w.tree.read w.folder path

def Unreadable (w : World) (o : Options) : Prop :=
  o.signatures = [] ∧ ∀ bytes, source w o = .ok bytes → Text.ofBytes? bytes = none

inductive Reported (w : World) (o : Options) (s : Settings) : Report → Prop where
  | given : o.signatures ≠ [] →
      Reported w o s (Batch.ofLines .verbatim s.batch o.signatures).value
  | read {bytes : ByteArray} {text : Text} : o.signatures = [] → source w o = .ok bytes →
      Text.ofBytes? bytes = some text → Reported w o s (Batch.ofText s.input s.batch text).value

theorem unreadable_or_reported (w : World) (o : Options) (s : Settings) :
    Unreadable w o ∨ ∃ report, Reported w o s report := by
  by_cases given : o.signatures = []
  · by_cases holds : ∃ bytes text, source w o = .ok bytes ∧ Text.ofBytes? bytes = some text
    · obtain ⟨bytes, text, found, decoded⟩ := holds
      exact Or.inr ⟨_, .read given found decoded⟩
    · refine Or.inl ⟨given, fun bytes found => ?_⟩
      cases decoded : Text.ofBytes? bytes with
      | none => rfl
      | some text => exact absurd ⟨bytes, text, found, decoded⟩ holds
  · exact Or.inr ⟨_, .given given⟩

theorem decode_ok {content : Except FileFault ByteArray} (found : content = .ok bytes)
    (decoded : Text.ofBytes? bytes = some text) : decode content = .ok text := by
  subst found
  simp only [decode, bind, Except.bind, decoded]
  rfl

theorem decode_error {content : Except FileFault ByteArray}
    (blank : ∀ bytes, content = .ok bytes → Text.ofBytes? bytes = none) :
    ∃ fault, decode content = .error fault := by
  cases content with
  | error fault => exact ⟨fault, rfl⟩
  | ok bytes =>
    refine ⟨.notUtf8, ?_⟩
    simp only [decode, bind, Except.bind, blank bytes rfl]
    rfl

theorem run_emitting {α : Type} (x : Logged α) (w : World) :
    (emitting x : StateM World α).run w = (x.value, w.logging x.records) := by
  unfold emitting
  rw [run_bind, run_forM_log, run_pure]

def fetch (o : Options) : StateM World (Except Failure Text) :=
  match o.input with
  | some path => readSource path
  | none => readInput

theorem run_fetch (w : World) (o : Options) :
    ∃ wrap, (fetch o).run w = ((decode (source w o)).mapError wrap, w) := by
  unfold fetch source
  cases o.input with
  | none => exact ⟨.unreadableInput, rfl⟩
  | some path =>
    by_cases dash : Path.same path ['-'] = true
    · refine ⟨.unreadableInput, ?_⟩
      simp only [readSource, dash, if_true]
      rfl
    · refine ⟨.unreadable path, ?_⟩
      simp only [readSource, dash]
      rfl

theorem collect_of_none_given (given : o.signatures = []) (s : Settings) :
    collect o s = fetch o >>= fun
      | .error failure => pure (.error failure)
      | .ok text => emitting (Batch.ofText s.input s.batch text) >>= fun r => pure (.ok r) := by
  unfold collect fetch
  rw [given, if_neg (by simp)]
  cases o.input <;> rfl

theorem run_collect_unreadable (unreadable : Unreadable w o) (s : Settings) :
    ∃ failure, (collect o s : StateM World _).run w = (.error failure, w) := by
  obtain ⟨given, blank⟩ := unreadable
  obtain ⟨fault, failed⟩ := decode_error blank
  obtain ⟨wrap, fetched⟩ := run_fetch w o
  rw [failed] at fetched
  refine ⟨wrap fault, ?_⟩
  rw [collect_of_none_given given, run_bind, fetched]
  rfl

theorem run_collect_reported (reported : Reported w o s report) :
    ∃ records, (collect o s : StateM World _).run w = (.ok report, w.logging records) := by
  cases reported with
  | given given =>
    refine ⟨(Batch.ofLines .verbatim s.batch o.signatures).records, ?_⟩
    unfold collect
    rw [if_pos (by simpa using given), run_bind, run_emitting]
    rfl
  | @read bytes text given found decoded =>
    obtain ⟨wrap, fetched⟩ := run_fetch w o
    rw [decode_ok found decoded] at fetched
    refine ⟨(Batch.ofText s.input s.batch text).records, ?_⟩
    rw [collect_of_none_given given, run_bind, fetched]
    show (emitting _ >>= _ : StateM World _).run w = _
    rw [run_bind, run_emitting]
    rfl

/-- What it means for a text to have been delivered: it is behind what was on the standard
output, or all that is in the file of its path. -/
inductive Delivered (w : World) (text : Text) : Option Text → World → Prop where
  | printed {records : List Log.Record} :
      Delivered w text none { w.logging records with output := w.output ++ text }
  | written {path : Text} {place : Place} {tree : FileTree} {records : List Log.Record} :
      w.tree.target w.folder path = .ok place →
      FileTree.Replaced place text.bytes w.tree tree →
      tree.read w.folder path = .ok text.bytes →
      Delivered w text (some path) { w.logging records with tree }

theorem run_deliver_uncreatable (missed : w.tree.target w.folder path = .error fault)
    (format : Format) (color : Bool) (report : Report) :
    (deliver (some path) format color report : StateM World _).run w =
      (.error (.uncreatable path fault), w) := by
  unfold deliver
  rw [run_bind, run_createFile_error missed]
  rfl

/-- Texts that are put to the standard output one by one arrive there as one text. -/
theorem run_standardOutput (texts : List Text) (w : World) :
    ((standardOutput : Outlet (StateM World)).deliver texts).run.run w =
      (.ok (), { w with output := w.output ++ texts.flatten }) := by
  induction texts generalizing w with
  | nil =>
    rw [List.flatten_nil, List.append_nil]
    rfl
  | cons t rest ih =>
    rw [Outlet.deliver_cons, List.flatten_cons, ← List.append_assoc]
    exact ih { w with output := w.output ++ t }

/-- A file behind a buffer gets what was held for it and all that is put to it at once. -/
theorem run_bufferedFile {result : Except FileFault Unit} {texts : List Text} {held : ByteArray}
    (appended : (Host.appendFile path (held ++ Text.bytes texts.flatten) : StateM World _).run w =
      (result, after)) :
    (((bufferedFile path).deliver texts : ExceptT _ (StateT _ (StateM World)) _).run.run
      held).run w = ((result, .empty), after) := by
  induction texts generalizing held with
  | nil =>
    rw [List.flatten_nil, Text.bytes_nil, ByteArray.append_empty] at appended
    rw [Outlet.deliver_nil]
    show (Host.appendFile path held >>= _ : StateM World _).run w = _
    rw [run_bind, appended]
    rfl
  | cons t rest ih =>
    rw [List.flatten_cons, Text.bytes_append, ← ByteArray.append_assoc] at appended
    rw [Outlet.deliver_cons]
    exact ih appended

theorem run_deliver_print (w : World) (format : Format) (color : Bool) (report : Report) :
    (deliver none format color report : StateM World _).run w =
      (.ok (), { w with output := w.output ++ report.rendered format color }) := by
  unfold deliver
  rw [Report.write_eq_deliver, run_bind, run_standardOutput]
  rfl

theorem run_deliver_file (ordinary : w.tree.Ordinary)
    (found : w.tree.target w.folder path = .ok place) (format : Format) (color : Bool)
    (report : Report) :
    ∃ tree, (deliver (some path) format color report : StateM World _).run w =
        (.ok (), { w with tree }) ∧
      FileTree.Replaced place (Text.bytes (report.rendered format color)) w.tree tree := by
  obtain ⟨emptied, tree, creation, appending, replaced⟩ :=
    run_replaceFile (ordinary place) found (Text.bytes (report.rendered format color))
  refine ⟨tree, ?_, replaced⟩
  rw [← ByteArray.empty_append (b := Text.bytes _)] at appending
  have buffered := run_bufferedFile appending
  unfold deliver
  rw [run_bind, creation]
  dsimp only
  rw [Report.write_eq_deliver, run_bind, buffered]
  rfl

/-- A run ends where collecting fails; otherwise the report is delivered, and the verdict
comes after that. -/
theorem run_of_failure {color : Bool} {failure : Failure}
    (collected : (collect o (o.override s) : StateM World _).run w = (.error failure, after)) :
    (run color o s : StateM World _).run w = (.error failure, after) := by
  unfold run
  rw [run_bind, collected]
  rfl

theorem run_of_report {color : Bool} {between : World}
    (collected : (collect o (o.override s) : StateM World _).run w = (.ok report, between)) :
    (run color o s : StateM World _).run w =
      (deliver o.output ((o.override s).output.format.getD .terminal)
        ((o.override s).output.color.getD color) report >>= fun
          | .error failure => pure (.error failure)
          | .ok () => pure (verdict report) : StateM World _).run between := by
  unfold run
  rewrite [run_bind, collected]
  rfl

theorem verdict_passed (passed : ∀ x ∈ report.outcomes, x.failed = false) :
    verdict report = .ok () := by
  have clean : report.hasFailures = false := by
    simpa [Report.hasFailures] using passed
  rw [verdict, clean, if_neg (by simp)]

theorem verdict_failed {x : Outcome} (member : x ∈ report.outcomes) (failed : x.failed = true) :
    verdict report =
      .error (.rejected (report.outcomes.countP Outcome.failed) report.outcomes.length) := by
  have tainted : report.hasFailures = true := List.any_eq_true.mpr ⟨x, member, failed⟩
  rw [verdict, tainted, if_pos rfl, Report.length_failures]

theorem run_unreadable (color : Bool) (s : Settings) (unreadable : Unreadable w o) :
    ∃ failure, (run color o s : StateM World _).run w = (.error failure, w) := by
  obtain ⟨failure, collected⟩ := run_collect_unreadable unreadable (o.override s)
  exact ⟨failure, run_of_failure collected⟩

theorem run_uncreatable (color : Bool) (s : Settings) (output : o.output = some path)
    (missed : w.tree.target w.folder path = .error fault) :
    ∃ failure records, (run color o s : StateM World _).run w =
      (.error failure, w.logging records) := by
  rcases unreadable_or_reported w o (o.override s) with unreadable | ⟨report, reported⟩
  · obtain ⟨failure, ran⟩ := run_unreadable color s unreadable
    exact ⟨failure, [], by rw [ran, logging_nil]⟩
  · obtain ⟨records, collected⟩ := run_collect_reported reported
    refine ⟨.uncreatable path fault, records, ?_⟩
    rw [run_of_report collected, output, run_bind,
      run_deliver_uncreatable (w := w.logging records) missed]
    rfl

theorem run_reported (color : Bool) (ordinary : w.tree.Ordinary)
    (reported : Reported w o (o.override s) report)
    (writable : ∀ path, o.output = some path → ∃ place, w.tree.target w.folder path = .ok place) :
    ∃ after, (run color o s : StateM World _).run w = (verdict report, after) ∧
      Delivered w (report.rendered ((o.override s).output.format.getD .terminal)
        ((o.override s).output.color.getD color)) o.output after := by
  obtain ⟨records, collected⟩ := run_collect_reported reported
  rw [run_of_report collected, run_bind]
  cases output : o.output with
  | none =>
    rw [run_deliver_print]
    exact ⟨_, rfl, .printed⟩
  | some path =>
    obtain ⟨place, found⟩ := writable path output
    obtain ⟨tree, delivered, replaced⟩ := run_deliver_file (w := w.logging records) ordinary found
      ((o.override s).output.format.getD .terminal) ((o.override s).output.color.getD color) report
    rw [delivered]
    exact ⟨_, rfl, .written found replaced (replaced.read found)⟩

/-- A run fails and changes nothing but the log, or delivers the report that is asked for, and
then fails only if a signature was rejected. -/
theorem run_cases (color : Bool) (ordinary : w.tree.Ordinary) (o : Options) (s : Settings) :
    (∃ failure records, (run color o s : StateM World _).run w =
      (.error failure, w.logging records)) ∨
    ∃ report after, Reported w o (o.override s) report ∧
      (run color o s : StateM World _).run w = (verdict report, after) ∧
      Delivered w (report.rendered ((o.override s).output.format.getD .terminal)
        ((o.override s).output.color.getD color)) o.output after := by
  rcases unreadable_or_reported w o (o.override s) with unreadable | ⟨report, reported⟩
  · obtain ⟨failure, ran⟩ := run_unreadable color s unreadable
    exact Or.inl ⟨failure, [], by rw [ran, logging_nil]⟩
  · by_cases writable :
        ∀ path, o.output = some path → ∃ place, w.tree.target w.folder path = .ok place
    · obtain ⟨after, ran, delivered⟩ := run_reported color ordinary reported writable
      exact Or.inr ⟨report, after, reported, ran, delivered⟩
    · push Not at writable
      obtain ⟨path, output, missed⟩ := writable
      cases target : w.tree.target w.folder path with
      | ok place => exact absurd target (missed place)
      | error fault => exact Or.inl (run_uncreatable color s output target)

/-- A run that cannot read what it is to read, or cannot open what it is to write, changes
nothing and prints nothing. Any other delivers the whole report that the world before it
asks for, and to nowhere else; only then does it fail, if a signature was rejected. -/
theorem run_effects (color : Bool) (o : Options) (s : Settings) (w : World)
    (ordinary : w.tree.Ordinary) :
    let settings := o.override s
    ∃ result after, (run color o s : StateM World _).run w = (result, after) ∧
      (Unreadable w o ∨ ∃ report, Reported w o settings report) ∧
      ((Unreadable w o ∨
          ∃ path fault, o.output = some path ∧ w.tree.target w.folder path = .error fault) →
        (∃ failure, result = .error failure) ∧ ∃ records, after = w.logging records) ∧
      ∀ report, Reported w o settings report →
        (∀ path, o.output = some path → ∃ place, w.tree.target w.folder path = .ok place) →
        Delivered w (report.rendered (settings.output.format.getD .terminal)
          (settings.output.color.getD color)) o.output after ∧
        ((∀ x ∈ report.outcomes, x.failed = false) → result = .ok ()) ∧
        ((∃ x ∈ report.outcomes, x.failed = true) → ∃ failure, result = .error failure ∧
          failure.message = Text.decimal (report.outcomes.countP Outcome.failed) ++ " of " ++
            Text.decimal report.outcomes.length ++ " signature(s) failed to parse") := by
  intro settings
  obtain ⟨result, after, ran⟩ : ∃ result after,
      (run color o s : StateM World _).run w = (result, after) := ⟨_, _, rfl⟩
  refine ⟨result, after, ran, unreadable_or_reported w o settings, ?_, ?_⟩
  · rintro (unreadable | ⟨path, fault, output, missed⟩)
    · obtain ⟨failure, stopped⟩ := run_unreadable color s unreadable
      cases ran.symm.trans stopped
      exact ⟨⟨failure, rfl⟩, [], (logging_nil w).symm⟩
    · obtain ⟨failure, records, stopped⟩ := run_uncreatable color s output missed
      cases ran.symm.trans stopped
      exact ⟨⟨failure, rfl⟩, records, rfl⟩
  · intro report reported writable
    obtain ⟨delivery, finished, delivered⟩ := run_reported color ordinary reported writable
    cases ran.symm.trans finished
    refine ⟨delivered, verdict_passed, ?_⟩
    rintro ⟨x, member, failed⟩
    exact ⟨_, verdict_failed member failed, rfl⟩

/-- The report may replace the file that it is about, and does so although a line in it
is rejected. -/
theorem run_effects_in_place :
    let w : World := { tree := ⟨[(["in.txt"], .file (Text.bytes "int a()\nbad\n"))]⟩ }
    let o : Options := { input := some "in.txt", output := some "in.txt" }
    w.tree.Ordinary ∧ ∃ failure after,
      (run false o {} : StateM World _).run w = (.error failure, after) ∧
      failure.message = "1 of 2 signature(s) failed to parse" ∧ after.output = [] ∧
      after.tree.read [] "in.txt" = .ok (Text.bytes
        "   1  int a()\n   2  [E010] missing '(' in signature 'bad'\n1 parsed, 1 failed\n") := by
  intro w o
  have ordinary : w.tree.Ordinary := FileTree.ordinary_of_entries (by simp [w])
  have content : source w o = .ok (Text.bytes "int a()\nbad\n") := rfl
  have found : w.tree.target [] "in.txt" = .ok ["in.txt"] := rfl
  let report : Report := ⟨[⟨1, "int a()", .ok ⟨none, "int", "a", []⟩⟩,
    ⟨2, "bad", .error (.unopened "bad")⟩], false⟩
  have parsed : (Batch.ofText {} {} "int a()\nbad\n").value = report := by rfl
  have reported : Reported w o (o.override {}) report :=
    parsed ▸ .read rfl content (Text.ofBytes?_bytes "int a()\nbad\n")
  have rendered : report.rendered .terminal false =
      "   1  int a()\n   2  [E010] missing '(' in signature 'bad'\n1 parsed, 1 failed\n" := by
    decide
  obtain ⟨result, after, ran, _, _, effects⟩ := run_effects false o {} w ordinary
  obtain ⟨delivered, _, rejected⟩ := effects report reported
    fun path output => ⟨["in.txt"], by cases output; exact found⟩
  obtain ⟨failure, failed, message⟩ := rejected ⟨_, by right; left, rfl⟩
  have counted : failure.message = "1 of 2 signature(s) failed to parse" := by
    rw [message]
    decide
  subst failed
  refine ⟨ordinary, failure, after, ran, counted, ?_⟩
  have delivered : Delivered w (report.rendered .terminal false) (some "in.txt") after := delivered
  rw [rendered] at delivered
  cases delivered with
  | written _ _ holds => exact ⟨rfl, holds⟩

end MethodLines.Reporting
