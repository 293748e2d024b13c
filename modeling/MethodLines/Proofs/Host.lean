import MethodLines.Host
import MethodLines.Proofs.FileTree.Writing

/-! Steps of a command in a world of one file tree. A step goes on from the world that the
one before it has left; logging leaves everything but the records as it was. -/
namespace MethodLines.World

variable {α β : Type} {w : World} {path : Text} {fault : FileFault} {place : Place}

theorem run_bind (x : StateM World α) (f : α → StateM World β) (w : World) :
    (x >>= f).run w = (f (x.run w).1).run (x.run w).2 := rfl

theorem run_pure (a : α) (w : World) : (pure a : StateM World α).run w = (a, w) := rfl

def logging (w : World) (records : List Log.Record) : World :=
  { w with records := w.records ++ records }

theorem logging_nil (w : World) : w.logging [] = w := by
  simp [logging]

theorem logging_append (w : World) (first second : List Log.Record) :
    (w.logging first).logging second = w.logging (first ++ second) := by
  simp [logging]

theorem run_log (record : Log.Record) (w : World) :
    (Host.log record : StateM World Unit).run w = ((), w.logging [record]) := rfl

theorem run_forM_log (records : List Log.Record) (w : World) :
    (records.forM Host.log : StateM World PUnit).run w = ((), w.logging records) := by
  induction records generalizing w with
  | nil => rw [logging_nil]; rfl
  | cons record records ih =>
    rw [List.forM_eq_forM, List.forM_cons, run_bind, run_log]
    rw [← List.forM_eq_forM, ih, logging_append, List.singleton_append]

theorem run_readFile (path : Text) (w : World) :
    (Host.readFile path : StateM World _).run w = (w.tree.read w.folder path, w) := rfl

theorem run_fileExists (path : Text) (w : World) :
    (Host.fileExists path : StateM World _).run w = (w.tree.exists w.folder path, w) := rfl

theorem run_currentFolder (w : World) :
    ∃ found, (Host.currentFolder : StateM World _).run w = (found, w) := by
  simp only [Host.currentFolder, StateT.run]
  split
  · exact ⟨_, rfl⟩
  · exact ⟨_, rfl⟩

theorem run_change_ok {f : FileTree → Except FileFault FileTree} {tree : FileTree}
    (changed : f w.tree = .ok tree) : (change f).run w = (.ok (), { w with tree }) := by
  show change f w = _
  unfold change
  rw [changed]

theorem run_change_error {f : FileTree → Except FileFault FileTree}
    (failed : f w.tree = .error fault) : (change f).run w = (.error fault, w) := by
  show change f w = _
  unfold change
  rw [failed]

theorem run_createFile_error (missed : w.tree.target w.folder path = .error fault) :
    (Host.createFile path : StateM World _).run w = (.error fault, w) :=
  run_change_error (FileTree.create_error missed)

theorem run_createFile_ok (regular : w.tree.entry? place ≠ some .full)
    (found : w.tree.target w.folder path = .ok place) :
    ∃ tree, (Host.createFile path : StateM World _).run w = (.ok (), { w with tree }) ∧
      FileTree.Replaced place .empty w.tree tree := by
  obtain ⟨tree, created, replaced⟩ := FileTree.create_ok regular found
  exact ⟨tree, run_change_ok created, replaced⟩

theorem run_appendFile_ok {content : ByteArray} (bytes : ByteArray)
    (found : w.tree.target w.folder path = .ok place)
    (here : w.tree.entry? place = some (.file content)) :
    ∃ tree, (Host.appendFile path bytes : StateM World _).run w = (.ok (), { w with tree }) ∧
      FileTree.Replaced place (content ++ bytes) w.tree tree := by
  obtain ⟨tree, appended, replaced⟩ := FileTree.append_ok bytes found here
  exact ⟨tree, run_change_ok appended, replaced⟩

/-- A file that is created and then written holds what was written and nothing else. -/
theorem run_replaceFile (regular : w.tree.entry? place ≠ some .full)
    (found : w.tree.target w.folder path = .ok place) (bytes : ByteArray) :
    ∃ emptied tree,
      (Host.createFile path : StateM World _).run w = (.ok (), { w with tree := emptied }) ∧
      (Host.appendFile path bytes : StateM World _).run { w with tree := emptied } =
        (.ok (), { w with tree }) ∧
      FileTree.Replaced place bytes w.tree tree := by
  obtain ⟨emptied, creation, blank⟩ := run_createFile_ok regular found
  have again : emptied.target w.folder path = .ok place := blank.target found
  obtain ⟨tree, appending, filled⟩ :=
    run_appendFile_ok (w := { w with tree := emptied }) bytes again blank.here
  rw [ByteArray.empty_append] at filled
  exact ⟨emptied, tree, creation, appending, blank.trans filled⟩

end MethodLines.World
