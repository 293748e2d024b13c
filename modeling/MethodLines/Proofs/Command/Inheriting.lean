import MethodLines.Proofs.Command.SettingsFile
import MethodLines.Proofs.Command.SettingUp
import MethodLines.Proofs.FileTree.Naming

/-! Settings that a folder has from one above it. The settings file that was set up in a folder
counts in every folder below it that has none of its own, as deep down as the search upwards
still comes by; further down it makes no difference. -/
namespace MethodLines.SettingsFile

open World

variable {w after : World} {folder start path : Text} {names : List Text} {place : Place}
  {force : Bool} {tree : FileTree}

/-- What the initial settings say: the defaults, and the terminal form by name. -/
def initial : Settings := { output := { format := some .terminal } }

theorem ofText?_initialText : Settings.ofText? Settings.initialText = some initial := by
  decide +kernel

theorem isName_fileName : Path.IsName Settings.fileName := by decide

/-- The settings that count are those of the first candidate that has some. -/
theorem loadFrom_eq_findSome? (w : World) (start : Text) :
    ((loadFrom start : StateM World _).run w).1 =
      ((candidates start).findSome? fun path => (finding w path).settings?).getD {} := by
  obtain ⟨passed, found, search⟩ := exists_search (finding w) (candidates start)
  rw [run_loadFrom search]
  cases search with
  | found split skipped valid =>
    rw [split, List.findSome?_append, List.findSome?_eq_none_iff.mpr skipped, List.findSome?_cons,
      valid]
    rfl
  | exhausted skipped =>
    rw [List.findSome?_eq_none_iff.mpr skipped]
    rfl

theorem settings?_eq_of_read {other : World}
    (same : ∀ bytes, w.tree.read w.folder path = .ok bytes ↔
      other.tree.read other.folder path = .ok bytes) :
    (finding w path).settings? = (finding other path).settings? := by
  have missed : ∀ fault, (Finding.ofRead (.error fault)).settings? = none := by
    intro fault
    cases fault <;> rfl
  unfold finding
  cases left : w.tree.read w.folder path with
  | ok bytes => rw [(same bytes).mp left]
  | error fault =>
    cases right : other.tree.read other.folder path with
    | ok bytes =>
      rw [(same bytes).mpr right] at left
      cases left
    | error fault' => rw [missed, missed]

/-- The candidates of a folder that lies less deep than the search reaches: those of the folders
on the way, and then one in the folder that the way is from. -/
theorem candidates_near (named : ∀ n ∈ names, Path.IsName n) (near : names.length < searchDepth)
    (folder : Text) : ∃ others, candidates (Path.below folder names) =
      (Path.descent folder names).reverse.map pathIn ++
        pathIn (if names = [] then folder else Path.trimmed folder) :: others := by
  obtain ⟨count, depth⟩ := Nat.exists_eq_add_of_lt near
  rw [candidates, depth, Nat.add_assoc, Path.ancestors_below named, List.map_append,
    Path.ancestors, List.map_cons]
  exact ⟨_, rfl⟩

/-- From deeper down, the folder that the way is from is not reached. -/
theorem candidates_far (named : ∀ n ∈ names, Path.IsName n) (far : searchDepth ≤ names.length)
    (candidate : path ∈ candidates (Path.below folder names)) :
    ∃ inner, inner ≠ [] ∧ inner <+: names ∧ path = pathIn (Path.below folder inner) := by
  obtain ⟨more, depth⟩ := Nat.exists_eq_add_of_le far
  have ways := Path.ancestors_below named folder 0
  rw [Path.ancestors, List.append_nil, Nat.add_zero, depth] at ways
  obtain ⟨p, member, rfl⟩ := List.mem_map.mp candidate
  rw [Path.ancestors_eq_take searchDepth more, ways] at member
  obtain ⟨inner, some_name, front, rfl⟩ :=
    Path.exists_of_mem_descent (List.mem_reverse.mp (List.mem_of_mem_take member))
  exact ⟨inner, some_name, front, rfl⟩

/-- The file of a folder is found under the shortest spelling of the folder as well. -/
theorem read_trimmed (located : tree.locate w.folder (pathIn folder) = .ok place) :
    tree.read w.folder (pathIn (Path.trimmed folder)) = tree.read w.folder (pathIn folder) := by
  have again : tree.locate w.folder (pathIn (Path.trimmed folder)) = .ok place :=
    FileTree.locate_join_trimmed isName_fileName located
  unfold FileTree.read
  rw [again, located]

theorem finding_of_setUp (done : (setUp folder force : StateM World _).run w = (.ok (), after)) :
    finding after (pathIn folder) = .valid initial ∧
      finding after (pathIn (Path.trimmed folder)) = .valid initial := by
  obtain ⟨place, target, same, replaced⟩ := replaced_of_setUp done
  have held := replaced.read target
  have located := FileTree.locate_of_target (replaced.target target) (by simp [replaced.here])
  rw [← same] at held located
  have valid : ∀ path, after.tree.read after.folder path = .ok (Text.bytes Settings.initialText) →
      finding after path = .valid initial := by
    intro path read
    rw [finding_of_text read, ofText?_initialText]
  exact ⟨valid _ held, valid _ ((read_trimmed located).trans held)⟩

theorem loadFrom_near (done : (setUp folder force : StateM World _).run w = (.ok (), after))
    (named : ∀ n ∈ names, Path.IsName n) (near : names.length ≤ 9)
    (unset : ∀ inner ∈ Path.descent folder names,
      (finding after (pathIn inner)).settings? = none) :
    ((loadFrom (Path.below folder names) : StateM World _).run after).1 =
      { output := { format := some .terminal } } := by
  obtain ⟨here, trimmed⟩ := finding_of_setUp done
  obtain ⟨others, split⟩ := candidates_near named (Nat.lt_succ_of_le near) folder
  have passed : ∀ p ∈ (Path.descent folder names).reverse.map pathIn,
      (finding after p).settings? = none := by
    intro p member
    obtain ⟨inner, listed, rfl⟩ := List.mem_map.mp member
    exact unset inner (List.mem_reverse.mp listed)
  have valid : finding after (pathIn (if names = [] then folder else Path.trimmed folder)) =
      .valid initial := by
    split
    · exact here
    · exact trimmed
  rw [loadFrom_eq_findSome?, split, List.findSome?_append,
    List.findSome?_eq_none_iff.mpr passed, List.findSome?_cons, valid]
  rfl

/-- From ten levels below, the place of the file in the folder itself is not looked at. -/
theorem loadFrom_far (named : ∀ n ∈ names, Path.IsName n)
    (far : 10 ≤ names.length) (located : w.tree.locate w.folder (pathIn folder) = .ok place)
    (differ : FileTree.DifferAt place w.tree tree) :
    ((loadFrom (Path.below folder names) : StateM World _).run { w with tree }).1 =
      ((loadFrom (Path.below folder names) : StateM World _).run w).1 := by
  rw [loadFrom_eq_findSome?, loadFrom_eq_findSome?]
  rw [← List.head?_filterMap, ← List.head?_filterMap]
  refine congrArg (fun found : List Settings => found.head?.getD {}) (List.filterMap_congr ?_)
  intro path candidate
  obtain ⟨inner, some_name, front, rfl⟩ := candidates_far named far candidate
  refine (settings?_eq_of_read fun bytes => ?_).symm
  have path_eq : pathIn (Path.below folder inner) =
      Path.below folder (inner ++ [Settings.fileName]) :=
    (Path.below_concat folder inner Settings.fileName).symm
  have all_named : ∀ m ∈ inner ++ [Settings.fileName], Path.IsName m := by
    rw [List.forall_mem_append, List.forall_mem_singleton]
    exact ⟨fun m member => named m (front.subset member), isName_fileName⟩
  have several : 2 ≤ (inner ++ [Settings.fileName]).length := by
    rw [List.length_append, List.length_singleton]
    exact Nat.succ_le_succ (List.length_pos_iff.mpr some_name)
  rw [path_eq]
  exact differ.read_below_iff isName_fileName all_named several located

/-- The settings that were set up in a folder count in all folders below it up to nine levels
down, if no folder on the way has settings of its own that can be loaded. From the tenth level on
it makes no difference what the file is, or whether it is there. -/
theorem setUp_inherited (done : (setUp folder force : StateM World _).run w = (.ok (), after))
    (named : ∀ n ∈ names, Path.IsName n) :
    (names.length ≤ 9 →
      (∀ inner ∈ Path.descent folder names, (finding after (pathIn inner)).settings? = none) →
      ((loadFrom (Path.below folder names) : StateM World _).run after).1 =
        { output := { format := some .terminal } }) ∧
    (10 ≤ names.length →
      ∃ place, after.tree.locate after.folder (pathIn folder) = .ok place ∧
        ∀ tree, FileTree.DifferAt place after.tree tree →
          ((loadFrom (Path.below folder names) : StateM World _).run { after with tree }).1 =
            ((loadFrom (Path.below folder names) : StateM World _).run after).1) := by
  constructor
  · intro near unset
    exact loadFrom_near done named near unset
  · intro far
    obtain ⟨place, target, same, replaced⟩ := replaced_of_setUp done
    have located := FileTree.locate_of_target (replaced.target target) (by simp [replaced.here])
    rw [← same] at located
    exact ⟨place, located, fun tree differ => loadFrom_far named far located differ⟩

/-- Settings that are set up count one level below, where a file is in the way that holds none;
ten levels below nothing changes even if they are gone. -/
theorem setUp_inherited_over_invalid :
    let w : World := { tree := ⟨[(["a"], .folder), (["a", "b"], .folder),
      (["a", "b", ".sigparse.toml"], .file (Text.bytes "[[["))]⟩ }
    let deep : List Text := List.replicate 10 "c"
    ∃ after, (setUp "a/" false : StateM World _).run w = (.ok (), after) ∧
      ((loadFrom (Path.below "a/" ["b"]) : StateM World _).run after).1 =
        { output := { format := some .terminal } } ∧
      ((loadFrom (Path.below "a/" deep) : StateM World _).run { after with tree := w.tree }).1 =
        ((loadFrom (Path.below "a/" deep) : StateM World _).run after).1 := by
  intro w deep
  have done : ∃ after, (setUp "a/" false : StateM World _).run w = (.ok (), after) := ⟨_, rfl⟩
  obtain ⟨after, done⟩ := done
  obtain ⟨place, target, same, replaced⟩ := replaced_of_setUp done
  refine ⟨after, done, ?_, ?_⟩
  · have invalid : (finding after (pathIn (Path.join "a/" "b"))).settings? = none := by
      cases done
      rw [finding_of_text (t := "[[[") rfl]
      decide +kernel
    have unset : ∀ inner ∈ Path.descent "a/" ["b"],
        (finding after (pathIn inner)).settings? = none := by
      simpa [Path.descent] using invalid
    exact (setUp_inherited done (by decide +kernel)).1 (by decide) unset
  · have named : ∀ n ∈ deep, Path.IsName n := by decide +kernel
    obtain ⟨there, located, unchanged⟩ := (setUp_inherited done named).2 (by decide)
    have here := FileTree.locate_of_target (replaced.target target) (by simp [replaced.here])
    rw [← same, located] at here
    cases here
    have differ : FileTree.DifferAt place after.tree w.tree :=
      ⟨replaced.elsewhere, by simp [replaced.here], FileTree.target_free target⟩
    exact unchanged w.tree differ

end MethodLines.SettingsFile
