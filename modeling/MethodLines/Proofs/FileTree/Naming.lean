import MethodLines.Proofs.FileTree.Writing
import MethodLines.Proofs.Path

/-! Where paths lead that names are joined to. The names of such a path are followed from where
the path in front leads; what is idle in that path is passed over without a step. -/
namespace MethodLines.FileTree

open MethodLines.Path

variable {tree a b : FileTree} {base place next : Place} {path n : Text} {names more : List Text}
  {r : Route}

def namesOf (path : Text) : List Text := (path.splitOn '/').filter fun name => name ≠ []

theorem namesOf_eq (path : Text) : namesOf path = (segments path).filter fun name => name ≠ [] := by
  unfold namesOf segments isAbsolute
  cases path with
  | nil => rfl
  | cons c t =>
    by_cases root : c = '/'
    · subst root
      rw [List.splitOn_cons_eq_if_modifyHead]
      simp
    · simp [root]

theorem filter_settled (pieces : List Text) :
    (settled pieces).filter (fun name => name ≠ []) = pieces.filter fun name => name ≠ [] := by
  unfold settled
  split
  · rename_i last
    obtain ⟨front, split⟩ := List.getLast?_eq_some_iff.mp last
    rw [split]
    simp
  · rfl

theorem namesOf_join (named : IsName n) (path : Text) :
    namesOf (join path n) = namesOf path ++ [n] := by
  rw [namesOf_eq, segments_join named, List.filter_append, filter_settled, ← namesOf_eq]
  simp [named.filled]

theorem namesOf_below (named : ∀ n ∈ names, IsName n) (path : Text) :
    namesOf (below path names) = namesOf path ++ names := by
  induction names using List.reverseRecOn with
  | nil => simp [below]
  | append_singleton names n ih =>
    obtain ⟨front, last⟩ := List.forall_mem_append.mp named
    rw [below_concat, namesOf_join (last n List.mem_cons_self), ih front, List.append_assoc]

/-- The names of a path are those without what is idle at its end, and dots. -/
theorem exists_dots (path : Text) : ∃ dots, namesOf path = namesOf (trimmed path) ++ dots ∧
    ∀ name ∈ dots, name = ['.'] := by
  obtain ⟨dropped, whole, empty⟩ := exists_dropped path
  refine ⟨dropped.filter fun name => name ≠ [], ?_, ?_⟩
  · rw [namesOf_eq, namesOf_eq, whole, List.filter_append,
      ← filter_settled (segments (trimmed path)),
      settled_segments_trimmed]
  · intro name member
    obtain ⟨listed, filled⟩ := List.mem_filter.mp member
    exact (empty name listed).resolve_left (by simpa using filled)

/-- Where a path starts from. -/
def startOf (base : Place) (path : Text) : Place := if isAbsolute path then [] else base

theorem route_ok_iff : route base path = .ok r ↔
    ('\x00' ∉ path ∧ path ≠ [] ∧ path.bytes.size ≤ pathLimit) ∧
      r = ⟨startOf base path, namesOf path, decide (path.getLast? = some '/')⟩ := by
  unfold route
  by_cases nul : '\x00' ∈ path
  · simp [nul]
  · by_cases empty : path = []
    · simp [empty]
    · by_cases long : pathLimit < path.bytes.size
      · simp [nul, empty, long, Nat.not_le.mpr long]
      · simp [nul, empty, long, Nat.le_of_not_lt long, startOf, isAbsolute, namesOf, eq_comm]

theorem walk_append (tree : FileTree) (place : Place) (names more : List Text) :
    tree.walk place (names ++ more) =
      tree.walk place names >>= fun next => tree.walk next more := by
  unfold walk
  rw [List.foldlM_append]

theorem walk_dots (dots : ∀ name ∈ names, name = ['.'])
    (walked : tree.walk place names = .ok next) : next = place := by
  induction names generalizing place with
  | nil => cases walked; rfl
  | cons name names ih =>
    obtain ⟨first, others⟩ := List.forall_mem_cons.mp dots
    obtain ⟨via, stepped, rest⟩ := Outcome.bind_ok_iff.mp walked
    obtain ⟨_, ⟨_, rfl⟩ | ⟨double, _⟩ | ⟨⟨plain, _⟩, _⟩⟩ := step_ok_iff.mp stepped
    · exact ih others rest
    · rw [first] at double
      contradiction
    · exact absurd first plain

theorem walk_names (named : ∀ n ∈ names, IsName n)
    (walked : tree.walk place names = .ok next) : next = place ++ names := by
  induction names generalizing place with
  | nil => cases walked; simp
  | cons name names ih =>
    obtain ⟨first, others⟩ := List.forall_mem_cons.mp named
    obtain ⟨via, stepped, rest⟩ := Outcome.bind_ok_iff.mp walked
    obtain ⟨_, ⟨dot, _⟩ | ⟨dots, _⟩ | ⟨_, _, rfl⟩⟩ := step_ok_iff.mp stepped
    · exact absurd dot first.dot
    · exact absurd dots first.dots
    · rw [ih others rest, List.append_assoc, List.singleton_append]

theorem startOf_below (named : ∀ n ∈ names, IsName n) (base : Place) (path : Text) :
    startOf base (below path names) = startOf base path := by
  induction names generalizing path with
  | nil => rfl
  | cons n names ih =>
    obtain ⟨first, others⟩ := List.forall_mem_cons.mp named
    rw [below, List.foldl_cons, ← below, ih others, startOf, isAbsolute_join first]
    rfl

/-- A path that names were joined to leads where they lead from the place that the path in front
of them leads to. -/
theorem locate_below_iff (named : ∀ n ∈ names, IsName n) (some_name : names ≠ []) :
    tree.locate base (below path names) = .ok place ↔
      ('\x00' ∉ below path names ∧ (below path names).bytes.size ≤ pathLimit) ∧
        tree.walk (startOf base path) (namesOf path ++ names) = .ok place := by
  obtain ⟨front, n, rfl⟩ := (List.eq_nil_or_concat' names).resolve_left some_name
  have last : IsName n := named n (by simp)
  have file : ¬ (decide ((join (below path front) n).getLast? = some '/') = true ∧
      tree.outline place ≠ some true) := by
    simp [getLast?_join last]
  rw [locate_eq, Outcome.bind_ok_iff, ← namesOf_below named, ← startOf_below named base path,
    below_concat]
  constructor
  · rintro ⟨r, routed, found⟩
    obtain ⟨⟨clean, _, short⟩, rfl⟩ := route_ok_iff.mp routed
    obtain ⟨there, walked, found⟩ := Outcome.bind_ok_iff.mp found
    rw [if_neg (by simp [getLast?_join last])] at found
    cases found
    exact ⟨⟨clean, short⟩, walked⟩
  · rintro ⟨⟨clean, short⟩, walked⟩
    refine ⟨_, route_ok_iff.mpr ⟨⟨clean, join_ne_nil last _, short⟩, rfl⟩, ?_⟩
    exact Outcome.bind_ok_iff.mpr ⟨place, walked, if_neg file⟩

theorem size_bytes_le_of_sublist {short long : Text} (sub : short.Sublist long) :
    short.bytes.size ≤ long.bytes.size := by
  have size : ∀ (c : Char) (t : Text),
      (Text.bytes (c :: t)).size = (Text.bytes [c]).size + t.bytes.size := by
    intro c t
    simp [Text.bytes, Nat.add_comm]
  induction sub with
  | slnil => exact Nat.le_refl _
  | @cons short long c sub ih =>
    have whole := size c long
    omega
  | @cons_cons short long c sub ih => rw [size c short, size c long]; omega

/-- What is idle at the end of a path leads nowhere else. -/
theorem locate_join_trimmed (named : IsName n)
    (found : tree.locate base (join path n) = .ok place) :
    tree.locate base (join (trimmed path) n) = .ok place := by
  have single : ∀ m ∈ [n], IsName m := by simpa using named
  obtain ⟨⟨clean, short⟩, walked⟩ := (locate_below_iff single (by simp)).mp found
  have sub := join_trimmed_sublist named path
  refine (locate_below_iff single (by simp)).mpr
    ⟨⟨fun inside => clean (sub.subset inside), (size_bytes_le_of_sublist sub).trans short⟩, ?_⟩
  obtain ⟨dots, names, idle⟩ := exists_dots path
  rw [names, List.append_assoc, walk_append] at walked
  obtain ⟨via, front, walked⟩ := Outcome.bind_ok_iff.mp walked
  rw [walk_append] at walked
  obtain ⟨folder, rest, last⟩ := Outcome.bind_ok_iff.mp walked
  obtain rfl := walk_dots idle rest
  rw [startOf, isAbsolute_trimmed, walk_append]
  exact Outcome.bind_ok_iff.mpr ⟨_, front, last⟩

/-- Two trees that differ at one place only, where neither has a folder. -/
structure DifferAt (place : Place) (a b : FileTree) : Prop where
  elsewhere : ∀ other, other ≠ place → a.entry? other = b.entry? other
  left : a.entry? place ≠ some .folder
  right : b.entry? place ≠ some .folder

theorem DifferAt.symm {place : Place} (differ : DifferAt place a b) : DifferAt place b a :=
  ⟨fun other apart => (differ.elsewhere other apart).symm, differ.right, differ.left⟩

theorem DifferAt.step {other : Place} (differ : DifferAt place a b)
    (stepped : a.step other n = .ok next) (apart : next ≠ place) : b.step other n = .ok next := by
  obtain ⟨folder, ways⟩ := step_ok_iff.mp stepped
  have outside : other ≠ place := by
    rintro rfl
    exact differ.left folder
  refine step_ok_iff.mpr ⟨(differ.elsewhere other outside).symm.trans folder, ?_⟩
  rcases ways with dot | dots | ⟨plain, present, rfl⟩
  · exact Or.inl dot
  · exact Or.inr (Or.inl dots)
  · rw [differ.elsewhere _ apart] at present
    exact Or.inr (Or.inr ⟨plain, present, rfl⟩)

/-- Names that lead elsewhere lead there in both trees: no way leads through the place. -/
theorem DifferAt.walk {other : Place} (differ : DifferAt place a b)
    (walked : a.walk other names = .ok next) (apart : next ≠ place) :
    b.walk other names = .ok next := by
  induction names generalizing other with
  | nil => exact walked
  | cons name names ih =>
    obtain ⟨via, stepped, rest⟩ := Outcome.bind_ok_iff.mp walked
    have outside : via ≠ place := by
      rintro rfl
      cases names with
      | nil => cases rest; exact apart rfl
      | cons second names =>
        obtain ⟨_, onwards, _⟩ := Outcome.bind_ok_iff.mp rest
        exact differ.left (step_ok_iff.mp onwards).1
    exact Outcome.bind_ok_iff.mpr ⟨via, differ.step stepped outside, ih rest⟩

theorem read_ok_iff {bytes : ByteArray} : tree.read base path = .ok bytes ↔
    ∃ place, tree.locate base path = .ok place ∧
      (tree.entry? place = some (.file bytes) ∨
        tree.entry? place = some .full ∧ bytes = .empty) := by
  unfold read
  rw [Outcome.bind_ok_iff]
  refine exists_congr fun place => and_congr_right fun _ => ?_
  cases tree.entry? place with
  | none => simp [throw, throwThe, MonadExceptOf.throw]
  | some entry =>
    cases entry <;>
      simp [throw, throwThe, MonadExceptOf.throw, pure, Except.pure, eq_comm]

/-- What is further down than the place is apart from it in both trees. -/
theorem DifferAt.apart {start folder : Place} (differ : DifferAt (folder ++ [n]) a b)
    (reached : a.walk start names = .ok folder) (named : ∀ m ∈ more, IsName m)
    (several : 2 ≤ more.length) (walked : b.walk start (names ++ more) = .ok next) :
    next ≠ folder ++ [n] := by
  intro same
  rw [walk_append] at walked
  obtain ⟨via, front, rest⟩ := Outcome.bind_ok_iff.mp walked
  have down := same.symm.trans (walk_names named rest)
  have lengths := congrArg List.length down
  simp only [List.length_append, List.length_singleton] at lengths
  have outside : via ≠ folder ++ [n] := by
    intro equal
    rw [equal, List.length_append, List.length_singleton] at lengths
    omega
  have arrived := differ.symm.walk front outside
  rw [reached] at arrived
  cases arrived
  omega

/-- A file further down than the place is the same in both trees, or missing from both. -/
theorem DifferAt.read_below_iff {bytes : ByteArray} (differ : DifferAt place a b) (last : IsName n)
    (named : ∀ m ∈ more, IsName m) (several : 2 ≤ more.length)
    (here : a.locate base (join path n) = .ok place) :
    a.read base (below path more) = .ok bytes ↔ b.read base (below path more) = .ok bytes := by
  have single : ∀ m ∈ [n], IsName m := by simpa using last
  have some_name : more ≠ [] := by
    rintro rfl
    simp at several
  obtain ⟨_, whole⟩ := (locate_below_iff single (by simp)).mp here
  rw [walk_append] at whole
  obtain ⟨folder, reached, stepped⟩ := Outcome.bind_ok_iff.mp whole
  obtain rfl := walk_names single stepped
  have itself : DifferAt (folder ++ [n]) a a := ⟨fun _ _ => rfl, differ.left, differ.left⟩
  rw [read_ok_iff, read_ok_iff]
  constructor
  · rintro ⟨file, located, held⟩
    obtain ⟨route, walked⟩ := (locate_below_iff named some_name).mp located
    have outside := itself.apart reached named several walked
    refine ⟨file, (locate_below_iff named some_name).mpr ⟨route, differ.walk walked outside⟩, ?_⟩
    rwa [← differ.elsewhere file outside]
  · rintro ⟨file, located, held⟩
    obtain ⟨route, walked⟩ := (locate_below_iff named some_name).mp located
    have outside := differ.apart reached named several walked
    refine ⟨file, (locate_below_iff named some_name).mpr
      ⟨route, differ.symm.walk walked outside⟩, ?_⟩
    rwa [differ.elsewhere file outside]

end MethodLines.FileTree
