import MethodLines.FileTree
import MethodLines.Proofs.Outcome

/-! Following paths through file trees. Where a path leads depends on where folders and
other entries stand and not on what files hold, so a tree whose files hold something else
is followed alike, failures included. Only a file that is read shows the difference. -/
namespace MethodLines.FileTree

variable {tree a b : FileTree} {base place : Place} {path : Text}

/-- What stands at a place, apart from what it holds: a folder, something else, or nothing. -/
def outline (tree : FileTree) (place : Place) : Option Bool :=
  (tree.entry? place).map fun
    | .folder => true
    | _ => false

/-- Two trees with the same entries, apart from what the files hold at some places. -/
def AgreeExcept (places : Place → Prop) (a b : FileTree) : Prop :=
  ∀ place, a.entry? place = b.entry? place ∨ places place ∧
    ∃ content content', a.entry? place = some (.file content) ∧
      b.entry? place = some (.file content')

theorem AgreeExcept.outline_eq {places : Place → Prop} (agree : AgreeExcept places a b)
    (place : Place) : a.outline place = b.outline place := by
  unfold outline
  rcases agree place with same | ⟨_, content, content', left, right⟩
  · rw [same]
  · rw [left, right]
    rfl

theorem outline_eq_folder_iff : tree.outline place = some true ↔
    tree.entry? place = some .folder := by
  unfold outline
  cases tree.entry? place with
  | none => simp
  | some entry => cases entry <;> simp

theorem step_congr (same : ∀ place, a.outline place = b.outline place) (place : Place)
    (name : Text) : a.step place name = b.step place name := by
  have present : (a.entry? (place ++ [name])).isSome = (b.entry? (place ++ [name])).isSome := by
    have := same (place ++ [name])
    unfold outline at this
    simpa using congrArg Option.isSome this
  have here := same place
  unfold step
  rw [present]
  unfold outline at here
  cases left : a.entry? place with
  | none =>
    rw [left] at here
    rw [Option.map_eq_none_iff.mp here.symm]
  | some entry =>
    cases right : b.entry? place with
    | none => simp [left, right] at here
    | some entry' =>
      rw [left, right] at here
      cases entry <;> cases entry' <;> first | rfl | simp at here

theorem walk_cons (tree : FileTree) (place : Place) (name : Text) (names : List Text) :
    tree.walk place (name :: names) = tree.step place name >>= fun next => tree.walk next names :=
  rfl

theorem walk_concat (tree : FileTree) (place : Place) (names : List Text) (name : Text) :
    tree.walk place (names ++ [name]) =
      tree.walk place names >>= fun next => tree.step next name := by
  unfold walk
  rw [List.foldlM_append]
  simp

theorem walk_congr (same : ∀ place, a.outline place = b.outline place) (place : Place)
    (names : List Text) : a.walk place names = b.walk place names := by
  induction names generalizing place with
  | nil => rfl
  | cons name names ih =>
    rw [walk_cons, walk_cons, step_congr same]
    exact bind_congr ih

/-- What a path that ends in a slash leads to has to be a folder. -/
theorem locate_eq (tree : FileTree) (base : Place) (path : Text) :
    tree.locate base path = route base path >>= fun r =>
      tree.walk r.start r.names >>= fun place =>
        if r.folder = true ∧ tree.outline place ≠ some true then .error .notFolder
        else .ok place := by
  unfold locate
  refine bind_congr fun r => bind_congr fun place => ?_
  cases r.folder with
  | false => simp [pure, Except.pure]
  | true =>
    by_cases here : tree.entry? place = some .folder
    · simp [here, outline_eq_folder_iff, pure, Except.pure]
    · rw [if_pos ⟨rfl, fun folder => here (outline_eq_folder_iff.mp folder)⟩]
      split
      · contradiction
      · contradiction
      · rfl

theorem locate_congr (same : ∀ place, a.outline place = b.outline place) (base : Place)
    (path : Text) : a.locate base path = b.locate base path := by
  rw [locate_eq, locate_eq]
  refine bind_congr fun r => ?_
  rw [walk_congr same]
  refine bind_congr fun place => ?_
  rw [same]

/-- Reading a file shows its content and nothing else of the files. -/
theorem AgreeExcept.read_eq {places : Place → Prop} (agree : AgreeExcept places a b)
    (elsewhere : ∀ place, a.locate base path = .ok place → ¬ places place) :
    a.read base path = b.read base path := by
  have located := locate_congr agree.outline_eq base path
  unfold read
  rw [← located]
  cases found : a.locate base path with
  | error fault => rfl
  | ok place =>
    have same : a.entry? place = b.entry? place :=
      (agree place).resolve_right fun differ => elsewhere place found differ.1
    simp only [bind, Except.bind, same]

end MethodLines.FileTree
