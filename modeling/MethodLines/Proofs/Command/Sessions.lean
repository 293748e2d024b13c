import MethodLines.Proofs.Command.Reporting
import MethodLines.Proofs.Command.SettingsFile
import MethodLines.Proofs.Command.SettingUp

/-! What commands that are run one after the other do to the files. Each step either leaves
them alone or replaces one file, and the second only where it has been asked to write and
then succeeds, unless all that failed is that signatures were rejected. So whatever has
changed at the end of a session was put there by the last step that wrote to its place, and
nothing is ever lost but what a step has replaced. -/
namespace MethodLines.Session

open World

/-- What can be asked for. Steps that read signatures have a standard input of their own. -/
inductive Step where
  | setUp (folder : Text) (force : Bool)
  /-- Loads the settings that count in a folder, or else in the current one. -/
  | load (start : Option Text)
  | collect (input : ByteArray) (options : Options) (settings : Settings)
  /-- The settings are loaded if none are given. -/
  | parse (input : ByteArray) (color : Bool) (options : Options) (settings : Option Settings)

def settings : Option Settings → StateM World Settings
  | some s => pure s
  | none => SettingsFile.load

def withInput {α : Type} (input : ByteArray) (x : StateM World α) : StateM World α :=
  fun w => x { w with input }

def Step.perform : Step → StateM World (Except Failure Unit)
  | .setUp folder force => SettingsFile.setUp folder force
  | .load none => do
    let _ ← SettingsFile.load
    return .ok ()
  | .load (some start) => do
    let _ ← SettingsFile.loadFrom start
    return .ok ()
  | .collect input o s => withInput input do
    return (← Reporting.collect o (o.override s)).map fun _ => ()
  | .parse input color o s => withInput input do
    Reporting.run color o (← settings s)

def Step.result (w : World) (step : Step) : Except Failure Unit := (step.perform.run w).1

def Step.next (w : World) (step : Step) : World := (step.perform.run w).2

def after (w : World) (steps : List Step) : World := steps.foldl Step.next w

theorem Step.result_parse (w : World) (input : ByteArray) (color : Bool) (o : Options)
    (s : Settings) : Step.result w (.parse input color o (some s)) =
      ((Reporting.run color o s : StateM World _).run { w with input }).1 := rfl

/-- A step has written to a place, and what. Settings are written by a step that succeeds, and
unless it is told to replace them only where nothing was. A report is written by a step that
has collected it and then judges nothing but what is in it. -/
inductive Writes (w : World) : Step → Place → ByteArray → Prop
  | settings {folder : Text} {force : Bool} {place : Place} :
      Step.result w (.setUp folder force) = .ok () →
      w.tree.target w.folder (SettingsFile.pathIn folder) = .ok place →
      (force = false → w.tree.entry? place = none) →
      Writes w (.setUp folder force) place Settings.initialText.bytes
  | report {input : ByteArray} {color : Bool} {o : Options} {s : Option Settings}
      {loaded : Settings} {report : Report} {path : Text} {place : Place} :
      ((settings s).run { w with input }).1 = loaded →
      Reporting.Reported { w with input } o (o.override loaded) report →
      Step.result w (.parse input color o s) = Reporting.verdict report →
      o.output = some path → w.tree.target w.folder path = .ok place →
      Writes w (.parse input color o s) place
        (report.rendered ((o.override loaded).output.format.getD .terminal)
          ((o.override loaded).output.color.getD color)).bytes

variable {w : World} {step : Step} {steps : List Step} {place : Place} {content : ByteArray}

inductive Effect (w : World) (step : Step) : Prop
  | idle : (Step.next w step).tree = w.tree → Effect w step
  | wrote {place : Place} {content : ByteArray} : Writes w step place content →
      FileTree.Replaced place content w.tree (Step.next w step).tree → Effect w step

theorem run_settings_logging (w : World) (s : Option Settings) :
    ∃ loaded records, (settings s).run w = (loaded, w.logging records) := by
  cases s with
  | some s => exact ⟨s, [], by rw [logging_nil]; rfl⟩
  | none => exact SettingsFile.run_load_logging w

/-- Records that were logged before do not matter to what is reported. -/
theorem reported_of_logging {records : List Log.Record} {o : Options} {s : Settings}
    {report : Report} (reported : Reporting.Reported (w.logging records) o s report) :
    Reporting.Reported w o s report := by
  cases reported with
  | given given => exact .given given
  | read given found decoded => exact .read given found decoded

theorem collect_idle (input : ByteArray) (o : Options) (s : Settings) :
    (Step.next w (.collect input o s)).tree = w.tree := by
  have ran : ∃ result records, (Reporting.collect o (o.override s) : StateM World _).run
      { w with input } = (result, World.logging { w with input } records) := by
    rcases Reporting.unreadable_or_reported { w with input } o (o.override s) with
      unreadable | ⟨report, reported⟩
    · obtain ⟨failure, ran⟩ := Reporting.run_collect_unreadable unreadable (o.override s)
      exact ⟨_, [], by rw [ran, logging_nil]⟩
    · obtain ⟨records, ran⟩ := Reporting.run_collect_reported reported
      exact ⟨_, records, ran⟩
  obtain ⟨result, records, ran⟩ := ran
  show ((Reporting.collect o (o.override s) >>= _ : StateM World _).run { w with input }).2.tree = _
  rw [run_bind, ran]
  rfl

theorem parse_effect (ordinary : w.tree.Ordinary) (input : ByteArray) (color : Bool) (o : Options)
    (s : Option Settings) : Effect w (.parse input color o s) := by
  obtain ⟨loaded, records, loading⟩ := run_settings_logging { w with input } s
  have performed : (Step.perform (.parse input color o s)).run w =
      (Reporting.run color o loaded : StateM World _).run
        (World.logging { w with input } records) := by
    show (settings s >>= _ : StateM World _).run { w with input } = _
    rw [run_bind, loading]
  rcases Reporting.run_cases (w := World.logging { w with input } records) color ordinary o loaded
    with ⟨failure, _, ran⟩ | ⟨report, after, reported, ran, delivered⟩
  · refine .idle ?_
    unfold Step.next
    rw [performed, ran]
    rfl
  · have next : Step.next w (.parse input color o s) = after := by
      unfold Step.next
      rw [performed, ran]
    have result : Step.result w (.parse input color o s) = Reporting.verdict report := by
      unfold Step.result
      rw [performed, ran]
    generalize output : o.output = destination at delivered
    cases delivered with
    | printed => exact .idle (by rw [next]; rfl)
    | written found replaced _ =>
      refine .wrote
        (.report (by rw [loading]) (reported_of_logging reported) result output found) ?_
      rw [next]
      exact replaced

theorem step_effect (ordinary : w.tree.Ordinary) (step : Step) : Effect w step := by
  cases step with
  | setUp folder force =>
    rcases SettingsFile.run_setUp ordinary folder force with
      ⟨failure, ran⟩ | ⟨place, found, free, after, ran, replaced⟩
    · exact .idle (congrArg (fun r => r.2.tree) ran)
    · have next : Step.next w (.setUp folder force) = after := congrArg Prod.snd ran
      exact .wrote (.settings (congrArg Prod.fst ran) found free) (by rw [next]; exact replaced)
  | load start =>
    refine .idle ?_
    cases start with
    | none =>
      obtain ⟨_, _, ran⟩ := SettingsFile.run_load_logging w
      show ((SettingsFile.load >>= _ : StateM World _).run w).2.tree = _
      rw [run_bind, ran]
      rfl
    | some start =>
      obtain ⟨_, _, ran⟩ := SettingsFile.run_loadFrom_logging w start
      show ((SettingsFile.loadFrom start >>= _ : StateM World _).run w).2.tree = _
      rw [run_bind, ran]
      rfl
  | collect input o s => exact .idle (collect_idle input o s)
  | parse input color o s => exact parse_effect ordinary input color o s

/-- What a step keeps to. -/
structure Safe (w : World) (step : Step) : Prop where
  /-- Only what the step wrote has changed, and it holds just that. -/
  changed : ∀ place, (Step.next w step).tree.entry? place ≠ w.tree.entry? place →
    ∃ content, Writes w step place content ∧
      (Step.next w step).tree.entry? place = some (.file content)
  /-- Settings that exist are kept unless they are to be replaced, and so is any other file. -/
  unforced : ∀ folder, step = .setUp folder false → ∀ place content,
    w.tree.entry? place = some (.file content) →
      (Step.next w step).tree.entry? place = some (.file content)
  /-- A step that fails has done nothing, but for signatures that were rejected. -/
  failed : ∀ failure, Step.result w step = .error failure → (Step.next w step).tree = w.tree ∨
    (∃ input color o s, step = .parse input color o s) ∧
      ∃ failed total, failure = .rejected failed total

theorem verdict_error {report : Report} {failure : Failure}
    (failed : Reporting.verdict report = .error failure) :
    ∃ failed total, failure = .rejected failed total := by
  unfold Reporting.verdict at failed
  split at failed
  · exact ⟨_, _, (Except.error.inj failed).symm⟩
  · contradiction

theorem Effect.safe (effect : Effect w step) : Safe w step := by
  cases effect with
  | idle same =>
    refine ⟨?_, ?_, fun _ _ => Or.inl same⟩
    · intro place different
      rw [same] at different
      contradiction
    · intro _ _ place content here
      rwa [same]
  | @wrote place content writes replaced =>
    refine ⟨?_, ?_, ?_⟩
    · intro other different
      by_cases here : other = place
      · subst here
        exact ⟨content, writes, replaced.here⟩
      · exact absurd (replaced.elsewhere other here) different
    · rintro folder rfl other held present
      cases writes with
      | settings _ _ free =>
        have apart : other ≠ place := by
          rintro rfl
          rw [free rfl] at present
          contradiction
        rwa [replaced.elsewhere other apart]
    · intro failure failed
      cases writes with
      | settings done _ _ =>
        rw [done] at failed
        contradiction
      | report _ _ judged _ _ =>
        rw [judged] at failed
        exact Or.inr ⟨⟨_, _, _, _, rfl⟩, verdict_error failed⟩

theorem Safe.ordinary (safe : Safe w step) (ordinary : w.tree.Ordinary) :
    (Step.next w step).tree.Ordinary := by
  intro place device
  by_cases same : (Step.next w step).tree.entry? place = w.tree.entry? place
  · exact ordinary place (same ▸ device)
  · obtain ⟨content, _, here⟩ := safe.changed place same
    cases here.symm.trans device

theorem after_ordinary (ordinary : w.tree.Ordinary) (steps : List Step) :
    (after w steps).tree.Ordinary := by
  induction steps generalizing w with
  | nil => exact ordinary
  | cons step steps ih => exact ih ((step_effect ordinary step).safe.ordinary ordinary)

theorem after_cons (w : World) (step : Step) (steps : List Step) :
    after w (step :: steps) = after (Step.next w step) steps := rfl

/-- What has changed in a session was put there by a step, and no later step wrote there. -/
theorem change_origin (ordinary : w.tree.Ordinary)
    (changed : (after w steps).tree.entry? place ≠ w.tree.entry? place) :
    ∃ before step later content, steps = before ++ step :: later ∧
      Writes (after w before) step place content ∧
      (after w steps).tree.entry? place = some (.file content) := by
  induction steps generalizing w with
  | nil => contradiction
  | cons step steps ih =>
    have safe := (step_effect ordinary step).safe
    rw [after_cons] at changed ⊢
    by_cases later : (after (Step.next w step) steps).tree.entry? place =
        (Step.next w step).tree.entry? place
    · rw [later] at changed ⊢
      obtain ⟨content, writes, here⟩ := safe.changed place changed
      exact ⟨[], step, steps, content, rfl, writes, here⟩
    · obtain ⟨before, origin, further, content, rfl, writes, here⟩ :=
        ih (safe.ordinary ordinary) later
      exact ⟨step :: before, origin, further, content, rfl, writes, here⟩

/-- In a session of any length, no file is lost. What has changed holds what the last step that
wrote to its place has written. Each single step changes only what it has written to; settings
are set up without force only where nothing was; and a step that fails leaves all files as they
were, unless it fails only because signatures were rejected. -/
theorem session_files (w : World) (ordinary : w.tree.Ordinary) (steps : List Step) :
    (∀ place content, w.tree.entry? place = some (.file content) →
      ∃ content', (after w steps).tree.entry? place = some (.file content')) ∧
    (∀ place, (after w steps).tree.entry? place ≠ w.tree.entry? place →
      ∃ before step later content, steps = before ++ step :: later ∧
        Writes (after w before) step place content ∧
        (after w steps).tree.entry? place = some (.file content)) ∧
    ∀ before step later, steps = before ++ step :: later → Safe (after w before) step := by
  refine ⟨?_, fun place => change_origin ordinary, ?_⟩
  · intro place content here
    by_cases same : (after w steps).tree.entry? place = w.tree.entry? place
    · exact ⟨content, same.trans here⟩
    · obtain ⟨_, _, _, content', _, _, replaced⟩ := change_origin ordinary same
      exact ⟨content', replaced⟩
  · intro before step later _
    exact (step_effect (after_ordinary ordinary before) step).safe

/-- Settings that exist are kept, and a report replaces an old one although a signature in it
is rejected. -/
theorem session_files_rejected :
    let w : World := { tree := ⟨[([".sigparse.toml"], .file (Text.bytes "custom")),
      (["out"], .file (Text.bytes "old"))]⟩ }
    let o : Options := { signatures := ["int a()", "bad"], output := some "out" }
    let steps : List Step := [.setUp "." false, .parse .empty false o (some {})]
    w.tree.Ordinary ∧ Step.result w (.setUp "." false) = .error .settingsExist ∧
      (Step.next w (.setUp "." false)).tree = w.tree ∧
      Step.result w (.parse .empty false o (some {})) = .error (.rejected 1 2) ∧
      ∃ content, (after w steps).tree.entry? ["out"] = some (.file content) := by
  intro w o steps
  have ordinary : w.tree.Ordinary := FileTree.ordinary_of_entries (by simp [w])
  obtain ⟨kept, _, safe⟩ := session_files w ordinary steps
  have refused : Step.result w (.setUp "." false) = .error .settingsExist := by rfl
  have idle : (Step.next w (.setUp "." false)).tree = w.tree := by
    rcases (safe [] (.setUp "." false) [_] rfl).failed _ refused with
      same | ⟨⟨_, _, _, _, other⟩, _⟩
    · exact same
    · cases other
  have target : w.tree.target [] "out" = .ok ["out"] := rfl
  obtain ⟨_, ran, _⟩ := Reporting.run_reported (w := { w with input := .empty }) (s := {}) false
    ordinary (.given (o := o) (by simp [o]))
    fun path output => ⟨["out"], by cases output; exact target⟩
  have rejected : Step.result w (.parse .empty false o (some {})) = .error (.rejected 1 2) := by
    rw [Step.result_parse, ran]
    rfl
  exact ⟨ordinary, refused, idle, rejected, kept ["out"] _ rfl⟩

end MethodLines.Session
