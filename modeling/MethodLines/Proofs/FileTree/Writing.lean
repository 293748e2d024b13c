import MethodLines.Proofs.FileTree.Following

/-! Creating and writing files. A file is put where its path leads to, over a file or over
nothing, so no folder is lost: all paths lead where they led before, the path of the file
leads to it, and every other place holds what it held. -/
namespace MethodLines.FileTree

variable {tree a b : FileTree} {base place other next : Place} {names : List Text}
  {name path : Text} {content bytes : ByteArray} {fault : FileFault}

theorem entry?_put_same (inner : place ≠ []) (tree : FileTree) (entry : FileEntry) :
    entry? (tree.put place entry) place = some entry := by
  unfold entry? put
  rw [if_neg inner, List.lookup_cons_self]

theorem entry?_put_other (different : other ≠ place) (tree : FileTree) (entry : FileEntry) :
    entry? (tree.put place entry) other = tree.entry? other := by
  have kept : ∀ entries : List (Place × FileEntry),
      (entries.filter fun e => e.1 ≠ place).lookup other = entries.lookup other := by
    intro entries
    induction entries with
    | nil => rfl
    | cons e entries ih =>
      by_cases here : e.1 = place
      · have apart : (other == e.1) = false := by simpa [here] using different
        rw [List.filter_cons_of_neg (by simpa using here), ih, List.lookup_cons, apart]
      · rw [List.filter_cons_of_pos (by simpa using here), List.lookup_cons, List.lookup_cons, ih]
  have apart : (other == place) = false := by simpa using different
  unfold entry? put
  rw [List.lookup_cons, apart, kept]

/-- Whatever stands in one tree stands in the other, and folders are folders there. -/
structure Within (a b : FileTree) : Prop where
  present : ∀ place, a.entry? place ≠ none → b.entry? place ≠ none
  folder : ∀ place, a.entry? place = some .folder → b.entry? place = some .folder

theorem step_ok_iff : tree.step place name = .ok next ↔ tree.entry? place = some .folder ∧
    (name = ['.'] ∧ next = place ∨
      name = ['.', '.'] ∧ next = place.dropLast ∨
      (name ≠ ['.'] ∧ name ≠ ['.', '.'] ∧ name.bytes.size ≤ nameLimit) ∧
        tree.entry? (place ++ [name]) ≠ none ∧ next = place ++ [name]) := by
  unfold step
  by_cases folder : tree.entry? place = some .folder
  · simp only [folder, true_and]
    by_cases dot : name = ['.']
    · simp [dot, eq_comm]
    · by_cases dots : name = ['.', '.']
      · simp [dots, eq_comm]
      · by_cases long : nameLimit < name.bytes.size
        · simp [dot, dots, long, Nat.not_le.mpr long]
        · cases present : tree.entry? (place ++ [name]) with
          | none => simp [dot, dots, long]
          | some entry => simp [dot, dots, long, Nat.le_of_not_lt long, eq_comm]
  · simp only [folder, false_and, iff_false]
    split
    · contradiction
    · simp
    · simp

theorem Within.step (within : Within a b) (stepped : a.step place name = .ok next) :
    b.step place name = .ok next := by
  obtain ⟨folder, ways⟩ := step_ok_iff.mp stepped
  refine step_ok_iff.mpr ⟨within.folder place folder, ?_⟩
  rcases ways with dot | dots | ⟨plain, present, rfl⟩
  · exact Or.inl dot
  · exact Or.inr (Or.inl dots)
  · exact Or.inr (Or.inr ⟨plain, within.present _ present, rfl⟩)

theorem Within.walk (within : Within a b) (walked : a.walk place names = .ok next) :
    b.walk place names = .ok next := by
  induction names generalizing place with
  | nil => exact walked
  | cons name names ih =>
    obtain ⟨via, stepped, rest⟩ := Outcome.bind_ok_iff.mp walked
    exact Outcome.bind_ok_iff.mpr ⟨via, within.step stepped, ih rest⟩

/-- A file can be written at the place that its path leads to: the last name of the path,
in a folder. There may be a file already, but no folder. -/
theorem target_ok_iff : tree.target base path = .ok place ↔ ∃ r name folder,
    route base path = .ok r ∧ r.names.getLast? = some name ∧ r.folder = false ∧
      tree.walk r.start r.names.dropLast = .ok folder ∧ tree.entry? folder = some .folder ∧
      (name ≠ ['.'] ∧ name ≠ ['.', '.'] ∧ name.bytes.size ≤ nameLimit) ∧
      tree.entry? (folder ++ [name]) ≠ some .folder ∧ place = folder ++ [name] := by
  unfold target
  constructor
  · intro found
    obtain ⟨r, routed, found⟩ := Outcome.bind_ok_iff.mp found
    cases last : r.names.getLast? with
    | none =>
      rw [last] at found
      contradiction
    | some name =>
      rw [last] at found
      obtain ⟨folder, walked, found⟩ := Outcome.bind_ok_iff.mp found
      have isFolder : tree.entry? folder = some .folder := by
        split at found
        · assumption
        · contradiction
        · contradiction
      rw [isFolder] at found
      dsimp only at found
      have plain : ¬ (name = ['.'] ∨ name = ['.', '.'] ∨ r.folder = true) := by
        intro special
        rw [if_pos special] at found
        contradiction
      rw [if_neg plain] at found
      have short : ¬ nameLimit < name.bytes.size := by
        intro long
        rw [if_pos long] at found
        contradiction
      rw [if_neg short] at found
      have free : tree.entry? (folder ++ [name]) ≠ some .folder := by
        intro occupied
        rw [occupied] at found
        contradiction
      have placed : folder ++ [name] = place := by
        split at found
        · contradiction
        · exact Except.ok.inj found
      rw [not_or, not_or, Bool.not_eq_true] at plain
      obtain ⟨dot, dots, slash⟩ := plain
      exact ⟨r, name, folder, routed, last, slash, walked, isFolder,
        ⟨dot, dots, Nat.le_of_not_lt short⟩, free, placed.symm⟩
  · rintro ⟨r, name, folder, routed, last, slash, walked, isFolder, ⟨dot, dots, short⟩, free, rfl⟩
    refine Outcome.bind_ok_iff.mpr ⟨r, routed, ?_⟩
    rw [last]
    refine Outcome.bind_ok_iff.mpr ⟨folder, walked, ?_⟩
    simp only [isFolder, dot, dots, slash, Nat.not_lt.mpr short, or_self, if_false,
      Bool.false_eq_true]
    rfl

theorem target_free (found : tree.target base path = .ok place) :
    tree.entry? place ≠ some .folder := by
  obtain ⟨_, _, _, _, _, _, _, _, _, free, rfl⟩ := target_ok_iff.mp found
  exact free

theorem target_ne_nil (found : tree.target base path = .ok place) : place ≠ [] := by
  obtain ⟨_, _, _, _, _, _, _, _, _, _, rfl⟩ := target_ok_iff.mp found
  simp

theorem Within.target (within : Within a b) (found : a.target base path = .ok place)
    (free : b.entry? place ≠ some .folder) : b.target base path = .ok place := by
  obtain ⟨r, name, folder, routed, last, slash, walked, isFolder, plain, _, rfl⟩ :=
    target_ok_iff.mp found
  exact target_ok_iff.mpr ⟨r, name, folder, routed, last, slash, within.walk walked,
    within.folder folder isFolder, plain, free, rfl⟩

/-- The path of a file that can be written leads to it once it is there. -/
theorem locate_of_target (found : tree.target base path = .ok place)
    (present : tree.entry? place ≠ none) : tree.locate base path = .ok place := by
  obtain ⟨r, name, folder, routed, last, slash, walked, isFolder, plain, _, rfl⟩ :=
    target_ok_iff.mp found
  have names : r.names.dropLast ++ [name] = r.names := List.dropLast_append_getLast? name last
  have stepped : tree.step folder name = .ok (folder ++ [name]) :=
    step_ok_iff.mpr ⟨isFolder, Or.inr (Or.inr ⟨plain, present, rfl⟩)⟩
  rw [locate_eq]
  refine Outcome.bind_ok_iff.mpr ⟨r, routed, ?_⟩
  refine Outcome.bind_ok_iff.mpr ⟨folder ++ [name], ?_, by simp [slash]⟩
  rw [← names, walk_concat]
  exact Outcome.bind_ok_iff.mpr ⟨folder, walked, stepped⟩

/-- Where a path that can be written to leads to nothing yet, nothing stands at its place. -/
theorem entry?_of_not_exists (found : tree.target base path = .ok place)
    (missing : tree.exists base path = false) : tree.entry? place = none := by
  by_contra present
  have located := locate_of_target found present
  unfold FileTree.exists at missing
  rw [located] at missing
  contradiction

/-- There are regular files and folders and nothing else. -/
def Ordinary (tree : FileTree) : Prop := ∀ place, tree.entry? place ≠ some .full

theorem ordinary_of_entries (regular : ∀ e ∈ tree.entries, e.2 ≠ .full) : tree.Ordinary := by
  intro place device
  unfold entry? at device
  split at device
  · cases device
  · obtain ⟨before, after, listed, _⟩ := List.lookup_eq_some_iff.mp device
    exact regular (place, .full) (by simp [listed]) rfl

/-- A tree in which one file holds something else, or is new. -/
structure Replaced (place : Place) (content : ByteArray) (before after : FileTree) : Prop where
  here : after.entry? place = some (.file content)
  elsewhere : ∀ other, other ≠ place → after.entry? other = before.entry? other

theorem replaced_put (inner : place ≠ []) (tree : FileTree) (content : ByteArray) :
    Replaced place content tree (tree.put place (.file content)) :=
  ⟨entry?_put_same inner tree _, fun _ different => entry?_put_other different tree _⟩

theorem Replaced.trans {c : FileTree} (first : Replaced place content a b)
    (second : Replaced place bytes b c) : Replaced place bytes a c :=
  ⟨second.here, fun other different =>
    (second.elsewhere other different).trans (first.elsewhere other different)⟩

theorem Replaced.within (replaced : Replaced place content a b)
    (free : a.entry? place ≠ some .folder) : Within a b := by
  constructor
  · intro other present
    by_cases same : other = place
    · subst same
      simp [replaced.here]
    · rwa [replaced.elsewhere other same]
  · intro other folder
    have different : other ≠ place := by
      rintro rfl
      exact free folder
    rwa [replaced.elsewhere other different]

theorem Replaced.target (replaced : Replaced place content a b)
    (found : a.target base path = .ok place) : b.target base path = .ok place :=
  (replaced.within (target_free found)).target found (by simp [replaced.here])

theorem Replaced.read (replaced : Replaced place content a b)
    (found : a.target base path = .ok place) : b.read base path = .ok content := by
  have located := locate_of_target (replaced.target found) (by simp [replaced.here])
  unfold FileTree.read
  simp [located, replaced.here, bind, Except.bind, pure, Except.pure]

theorem create_error (missed : tree.target base path = .error fault) :
    tree.create base path = .error fault := by
  unfold create
  rw [missed]
  rfl

/-- What stood at the place of a file that is created is gone. -/
theorem create_ok (regular : tree.entry? place ≠ some .full)
    (found : tree.target base path = .ok place) :
    ∃ after, tree.create base path = .ok after ∧ Replaced place .empty tree after := by
  refine ⟨tree.put place (.file .empty), ?_, replaced_put (target_ne_nil found) tree .empty⟩
  unfold create
  rw [found]
  simp only [bind, Except.bind]
  rfl

theorem append_ok (bytes : ByteArray) (found : tree.target base path = .ok place)
    (here : tree.entry? place = some (.file content)) :
    ∃ after, tree.append base path bytes = .ok after ∧
      Replaced place (content ++ bytes) tree after := by
  refine ⟨_, ?_, replaced_put (target_ne_nil found) tree (content ++ bytes)⟩
  unfold append
  rw [found]
  simp only [bind, Except.bind, here]
  rfl

theorem create_device (found : tree.target base path = .ok place)
    (device : tree.entry? place = some .full) : tree.create base path = .ok tree := by
  unfold create
  rw [found]
  simp only [bind, Except.bind, device]
  rfl

theorem append_device (found : tree.target base path = .ok place)
    (device : tree.entry? place = some .full) (filled : bytes.isEmpty = false) :
    tree.append base path bytes = .error .noSpace := by
  unfold append
  rw [found]
  simp only [bind, Except.bind, device, filled]
  rfl

end MethodLines.FileTree
