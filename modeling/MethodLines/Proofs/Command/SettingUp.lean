import MethodLines.Command.SettingsFile
import MethodLines.Proofs.Host

/-! Setting up a settings file. One that exists is only replaced by force; where none is kept,
the initial settings are written, and a file that cannot be created is no loss either. -/
namespace MethodLines.SettingsFile

open World

variable {w after : World} {folder path : Text} {place : Place} {fault : FileFault} {force : Bool}

def pathIn (folder : Text) : Text := Path.join folder Settings.fileName

theorem run_write_error (missed : w.tree.target w.folder path = .error fault) (content : Text) :
    (write path content : StateM World _).run w = (.error fault, w) := by
  unfold write
  rw [run_bind, run_createFile_error missed]
  rfl

theorem run_write_ok (regular : w.tree.entry? place ≠ some .full)
    (found : w.tree.target w.folder path = .ok place) (content : Text) :
    ∃ tree, (write path content : StateM World _).run w = (.ok (), { w with tree }) ∧
      FileTree.Replaced place content.bytes w.tree tree := by
  obtain ⟨_, tree, creation, appending, replaced⟩ := run_replaceFile regular found content.bytes
  refine ⟨tree, ?_, replaced⟩
  unfold write
  rw [run_bind, creation]
  exact appending

/-- A device has no space for anything. -/
theorem run_write_device (found : w.tree.target w.folder path = .ok place)
    (device : w.tree.entry? place = some .full) {content : Text}
    (filled : content.bytes.isEmpty = false) :
    (write path content : StateM World _).run w = (.error .noSpace, w) := by
  have creation : (Host.createFile path : StateM World _).run w = (.ok (), w) :=
    run_change_ok (FileTree.create_device found device)
  unfold write
  rw [run_bind, creation]
  exact run_change_error (FileTree.append_device found device filled)

theorem run_setUp_kept (taken : (w.tree.exists w.folder (pathIn folder) && !force) = true) :
    (setUp folder force : StateM World _).run w = (.error .settingsExist, w) := by
  unfold setUp
  rw [run_bind, run_fileExists]
  show (if _ then _ else _ : StateM World _).run w = _
  rw [if_pos (by simpa [pathIn] using taken)]
  rfl

/-- Where no file is to be kept, setting up is writing, and then saying so. -/
theorem run_setUp_free (free : (w.tree.exists w.folder (pathIn folder) && !force) = false) :
    (setUp folder force : StateM World _).run w =
      (write (pathIn folder) Settings.initialText >>= fun
        | .error fault => pure (.error (.unwritable (pathIn folder) fault))
        | .ok () => do
          Host.log ⟨.info, .setup, "Wrote " ++ pathIn folder⟩
          let _ ← Host.print ("Created " ++ Settings.fileName ++ " configuration file\n")
          return .ok () : StateM World _).run w := by
  unfold setUp
  rw [run_bind, run_fileExists]
  show (if _ then _ else _ : StateM World _).run w = _
  rw [if_neg (by simpa [pathIn] using free)]
  rfl

/-- Setting up fails and changes nothing, or puts the initial settings into the file that it
is about: one that was not there before unless it was to be replaced. -/
theorem run_setUp (ordinary : w.tree.Ordinary) (folder : Text) (force : Bool) :
    (∃ failure, (setUp folder force : StateM World _).run w = (.error failure, w)) ∨
    ∃ place, w.tree.target w.folder (pathIn folder) = .ok place ∧
      (force = false → w.tree.entry? place = none) ∧
      ∃ after, (setUp folder force : StateM World _).run w = (.ok (), after) ∧
        FileTree.Replaced place Settings.initialText.bytes w.tree after.tree := by
  cases kept : w.tree.exists w.folder (pathIn folder) && !force with
  | true => exact Or.inl ⟨_, run_setUp_kept kept⟩
  | false =>
    rw [run_setUp_free kept, run_bind]
    cases target : w.tree.target w.folder (pathIn folder) with
    | error fault =>
      rw [run_write_error target]
      exact Or.inl ⟨_, rfl⟩
    | ok place =>
      obtain ⟨tree, written, replaced⟩ := run_write_ok (ordinary place) target Settings.initialText
      rw [written]
      refine Or.inr ⟨place, rfl, ?_, _, rfl, replaced⟩
      rintro rfl
      exact FileTree.entry?_of_not_exists target (by simpa using kept)

/-- Setting up that succeeds leaves the initial settings in the file of the folder. -/
theorem replaced_of_setUp (done : (setUp folder force : StateM World _).run w = (.ok (), after)) :
    ∃ place, w.tree.target w.folder (pathIn folder) = .ok place ∧ after.folder = w.folder ∧
      FileTree.Replaced place Settings.initialText.bytes w.tree after.tree := by
  cases kept : w.tree.exists w.folder (pathIn folder) && !force with
  | true =>
    rw [run_setUp_kept kept] at done
    cases done
  | false =>
    rw [run_setUp_free kept, run_bind] at done
    cases target : w.tree.target w.folder (pathIn folder) with
    | error fault =>
      rw [run_write_error target] at done
      cases done
    | ok place =>
      by_cases device : w.tree.entry? place = some .full
      · have filled : (Text.bytes Settings.initialText).isEmpty = false := by decide +kernel
        rw [run_write_device target device filled] at done
        cases done
      · obtain ⟨tree, written, replaced⟩ := run_write_ok device target Settings.initialText
        rw [written] at done
        cases done
        exact ⟨place, rfl, rfl, replaced⟩

end MethodLines.SettingsFile
