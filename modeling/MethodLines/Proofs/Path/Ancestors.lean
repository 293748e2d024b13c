import Mathlib.Data.List.DropRight
import MethodLines.Proofs.Path

/-! The way up from any path, however it is written. One step takes the last component off and
what is idle in front of it, so that steps are counted in components and not in characters:
the way up ends where none is left, at the root or the empty path, and every path on it is a
front of the first. -/
namespace MethodLines.Path

variable {path parent start middle : Text} {pieces front before : List Text} {last : Text}
  {absolute : Bool} {count more depth i : Nat}

def counted (absolute : Bool) : List Text → List Text
  | [] => []
  | first :: rest =>
    (if isIdle (!absolute) first then [] else [first]) ++ rest.filter fun s => !isIdle false s

theorem components_eq_counted (path : Text) :
    components path = counted (isAbsolute path) (segments path) := by
  unfold components counted
  cases segments path <;> rfl

theorem components_eq_counted_reverse (path : Text) :
    components path = counted (isAbsolute path) (segments path).reverse.reverse := by
  rw [components_eq_counted, List.reverse_reverse]

theorem counted_concat (absolute : Bool) (front : List Text) (last : Text) :
    counted absolute (front ++ [last]) =
      counted absolute front ++
        if isIdle (!absolute && front.isEmpty) last then [] else [last] := by
  cases front with
  | nil => simp [counted]
  | cons first others =>
    rw [List.cons_append, counted, counted, List.filter_append, List.append_assoc]
    cases idle : isIdle false last <;> simp [idle]

/-- What is dropped at the end did not count. -/
theorem counted_dropIdle (absolute : Bool) (pieces : List Text) :
    counted absolute (dropIdle absolute pieces).reverse = counted absolute pieces.reverse := by
  induction pieces with
  | nil => rfl
  | cons segment before ih =>
    rw [dropIdle]
    split
    · rename_i idle
      rw [ih, List.reverse_cons, counted_concat, List.isEmpty_reverse, if_pos idle,
        List.append_nil]
    · rfl

/-- Dropping stops at a segment that counts. -/
theorem counted_of_dropIdle (dropped : dropIdle absolute pieces = last :: before) :
    counted absolute pieces.reverse = counted absolute before.reverse ++ [last] := by
  have filled : isIdle (!absolute && before.isEmpty) last = false := by
    induction pieces with
    | nil => contradiction
    | cons segment others ih =>
      rw [dropIdle] at dropped
      split at dropped
      · exact ih dropped
      · rename_i filled
        cases dropped
        simpa using filled
  rw [← counted_dropIdle, dropped, List.reverse_cons, counted_concat, List.isEmpty_reverse, filled]
  rfl

theorem dropIdle_eq_nil_iff :
    dropIdle absolute pieces = [] ↔ counted absolute pieces.reverse = [] := by
  cases dropped : dropIdle absolute pieces with
  | nil =>
    rw [← counted_dropIdle, dropped]
    exact iff_of_true rfl rfl
  | cons last before => simp [counted_of_dropIdle dropped]

theorem components_ofSegments (within : pieces <+: segments path) :
    components (ofSegments (isAbsolute path) pieces) = counted (isAbsolute path) pieces := by
  by_cases none_left : pieces = []
  · subst none_left
    cases isAbsolute path <;> rfl
  · rw [components_eq_counted, isAbsolute_ofSegments within, segments_ofSegments within none_left]

theorem parent?_eq_none_iff : parent? path = none ↔ components path = [] := by
  rw [components_eq_counted_reverse, ← dropIdle_eq_nil_iff]
  unfold parent?
  dsimp only
  split
  · rename_i none_left
    exact iff_of_true rfl none_left
  · rename_i some_left
    simp [some_left]

/-- One step up: the segments in front of the last that counts, without what is idle there. -/
theorem parent?_eq_some_iff : parent? path = some parent ↔ ∃ last before,
    dropIdle (isAbsolute path) (segments path).reverse = last :: before ∧
      parent = ofSegments (isAbsolute path) (dropIdle (isAbsolute path) before).reverse := by
  unfold parent?
  dsimp only
  split
  · rename_i none_left
    simp [none_left]
  · rename_i last before some_left
    simp [some_left, eq_comm]

/-- A path without the last components of another, so many of them. The root stays, and what
is left is written as it was. -/
structure Shortened (start : Text) (count : Nat) (path : Text) : Prop where
  front : path <+: start
  root : isAbsolute path = isAbsolute start
  left : components path = (components start).rdrop count

theorem Shortened.refl (start : Text) : Shortened start 0 start :=
  ⟨List.prefix_rfl, rfl, (List.rdrop_zero _).symm⟩

theorem Shortened.trans (first : Shortened start count middle)
    (others : Shortened middle more path) : Shortened start (count + more) path where
  front := others.front.trans first.front
  root := others.root.trans first.root
  left := by
    rw [others.left, first.left]
    simp only [List.rdrop_eq_reverse_drop_reverse, List.reverse_reverse, List.drop_drop]

theorem dropIdle_suffix (absolute : Bool) (pieces : List Text) :
    dropIdle absolute pieces <:+ pieces := by
  obtain ⟨dropped, whole, _⟩ := exists_idle absolute pieces
  exact ⟨dropped, whole.symm⟩

theorem dropIdle_within
    (kept : dropIdle (isAbsolute path) (segments path).reverse = last :: before) :
    (dropIdle (isAbsolute path) before).reverse <+: segments path := by
  rw [← List.reverse_suffix, List.reverse_reverse]
  calc dropIdle (isAbsolute path) before
      <:+ before := dropIdle_suffix _ _
    _ <:+ last :: before := List.suffix_cons _ _
    _ <:+ (segments path).reverse := kept ▸ dropIdle_suffix _ _

/-- One step up takes one component off. -/
theorem shortened_parent (up : parent? path = some parent) : Shortened path 1 parent := by
  obtain ⟨last, before, kept, rfl⟩ := parent?_eq_some_iff.mp up
  have within := dropIdle_within kept
  refine ⟨ofSegments_isPrefix within, isAbsolute_ofSegments within, ?_⟩
  rw [components_ofSegments within, counted_dropIdle, components_eq_counted_reverse,
    counted_of_dropIdle kept, List.rdrop_concat_succ, List.rdrop_zero]

/-- Where the way up ends: at the root, or at the empty path. -/
def top (path : Text) : Text := if isAbsolute path then "/" else ""

theorem ofSegments_nil (path : Text) : ofSegments (isAbsolute path) [] = top path := by
  unfold top
  cases isAbsolute path <;> rfl

theorem components_top (path : Text) : components (top path) = [] := by
  rw [← ofSegments_nil, components_ofSegments List.nil_prefix]
  rfl

theorem isAbsolute_top (path : Text) : isAbsolute (top path) = isAbsolute path := by
  rw [← ofSegments_nil, isAbsolute_ofSegments List.nil_prefix]

/-- A step that leaves no component leaves nothing else. -/
theorem parent?_eq_top (up : parent? path = some parent) (none_left : components parent = []) :
    parent = top path := by
  obtain ⟨last, before, kept, rfl⟩ := parent?_eq_some_iff.mp up
  rw [components_ofSegments (dropIdle_within kept), counted_dropIdle,
    ← dropIdle_eq_nil_iff] at none_left
  rw [none_left, List.reverse_nil, ofSegments_nil]

theorem ancestors_of_parent (up : parent? start = some parent) (depth : Nat) :
    ancestors (depth + 1) start = start :: ancestors depth parent := by
  rw [ancestors, up]

theorem ancestors_of_none (none_left : parent? start = none) (depth : Nat) :
    ancestors (depth + 1) start = [start] := by
  rw [ancestors, none_left]

theorem length_components_parent (up : parent? start = some parent) :
    (components start).length = (components parent).length + 1 := by
  have some_left : components start ≠ [] := by
    rw [ne_eq, ← parent?_eq_none_iff, up]
    simp
  have positive := List.length_pos_iff.mpr some_left
  rw [(shortened_parent up).left, List.rdrop, List.length_take]
  omega

theorem length_ancestors (depth : Nat) (start : Text) :
    (ancestors depth start).length = min depth ((components start).length + 1) := by
  induction depth generalizing start with
  | zero => simp [ancestors]
  | succ depth ih =>
    cases up : parent? start with
    | none =>
      rw [ancestors_of_none up, parent?_eq_none_iff.mp up]
      simp
    | some parent =>
      rw [ancestors_of_parent up, List.length_cons, ih, length_components_parent up]
      omega

theorem shortened_ancestors (listed : (ancestors depth start)[i]? = some path) :
    Shortened start i path := by
  induction depth generalizing start i with
  | zero => simp [ancestors] at listed
  | succ depth ih =>
    cases i with
    | zero =>
      rw [ancestors, List.getElem?_cons_zero] at listed
      exact Option.some.inj listed ▸ .refl start
    | succ i =>
      cases up : parent? start with
      | none =>
        rw [ancestors_of_none up] at listed
        simp at listed
      | some parent =>
        rw [ancestors_of_parent up, List.getElem?_cons_succ] at listed
        exact Nat.add_comm 1 i ▸ (shortened_parent up).trans (ih listed)

theorem top_parent (up : parent? path = some parent) : top parent = top path := by
  rw [top, top, (shortened_parent up).root]

/-- A path on the way up that has no component left is where the way ends. -/
theorem eq_top_of_ancestors (listed : (ancestors depth start)[i]? = some path)
    (none_left : components path = []) : path = start ∨ path = top start := by
  induction depth generalizing start i with
  | zero => simp [ancestors] at listed
  | succ depth ih =>
    cases i with
    | zero =>
      rw [ancestors, List.getElem?_cons_zero] at listed
      exact Or.inl (Option.some.inj listed).symm
    | succ i =>
      cases up : parent? start with
      | none =>
        rw [ancestors_of_none up] at listed
        simp at listed
      | some parent =>
        rw [ancestors_of_parent up, List.getElem?_cons_succ] at listed
        rcases ih listed with rfl | ended
        · exact Or.inr (parent?_eq_top up none_left)
        · exact Or.inr (ended.trans (top_parent up))

theorem ancestors_enough (enough : (components start).length < depth) :
    ancestors depth start = ancestors ((components start).length + 1) start := by
  rw [ancestors_eq_take ((components start).length + 1) (depth - ((components start).length + 1)),
    Nat.add_sub_cancel' enough, List.take_of_length_le]
  rw [length_ancestors]
  exact min_le_right _ _

theorem getLast?_ancestors (enough : (components start).length < depth) :
    ∃ last, (ancestors depth start).getLast? = some last ∧ components last = [] ∧
      isAbsolute last = isAbsolute start ∧ (last = start ∨ last = top start) := by
  have length : (ancestors depth start).length = (components start).length + 1 := by
    rw [length_ancestors]
    exact min_eq_right enough
  have within : (components start).length < (ancestors depth start).length := by omega
  have listed := List.getElem?_eq_getElem within
  have shortened := shortened_ancestors listed
  have none_left : components (ancestors depth start)[(components start).length] = [] := by
    rw [shortened.left, List.rdrop, Nat.sub_self, List.take_zero]
  refine ⟨_, ?_, none_left, shortened.root, eq_top_of_ancestors listed none_left⟩
  rw [List.getLast?_eq_getElem?, length, Nat.add_sub_cancel, listed]

/-- The way up takes the components of a path off one by one, from the last to the first. It
starts at the path as it is written, and every other path on it is a front of that. A limit
only cuts it short: it ends by itself one step behind the last component, at the root or at the
empty path. -/
theorem ancestors_exact (start : Text) (depth : Nat) :
    (ancestors depth start).length = min depth ((components start).length + 1) ∧
    (0 < depth → (ancestors depth start).head? = some start) ∧
    (∀ i path, (ancestors depth start)[i]? = some path → Shortened start i path) ∧
    ((components start).length < depth →
      ancestors depth start = ancestors ((components start).length + 1) start ∧
      ∃ last, (ancestors depth start).getLast? = some last ∧ parent? last = none ∧
        same last (top start) ∧ (components start ≠ [] → last = top start)) := by
  refine ⟨length_ancestors depth start, ?head, fun i path => shortened_ancestors, ?last⟩
  case head =>
    intro positive
    obtain ⟨count, rfl⟩ := Nat.exists_eq_succ_of_ne_zero (Nat.ne_of_gt positive)
    rfl
  case last =>
    intro enough
    obtain ⟨last, listed, none_left, root, written⟩ := getLast?_ancestors enough
    refine ⟨ancestors_enough enough, last, listed, parent?_eq_none_iff.mpr none_left, ?_, ?_⟩
    · simp [same, root, none_left, isAbsolute_top, components_top]
    · intro some_left
      refine written.resolve_left ?_
      rintro rfl
      exact some_left none_left

/-- Repeated and final slashes, dots that count and dots that do not, and a limit that is no
help. -/
theorem ancestors_exact_untidy :
    let start : Text := ".//a/./b/../"
    (ancestors 9 start).length = 5 ∧ (ancestors 9 start).head? = some start ∧
      (ancestors 9 start)[2]? = some (".//a" : Text) ∧ Shortened start 2 ".//a" ∧
      ancestors 9 start = ancestors 5 start ∧ (ancestors 9 start).getLast? = some ("" : Text) := by
  intro start
  obtain ⟨length, head, shortened, ended⟩ := ancestors_exact start 9
  obtain ⟨enough, last, listed, _, _, written⟩ := ended (by decide)
  have second : (ancestors 9 start)[2]? = some (".//a" : Text) := by decide
  have empty : last = ("" : Text) := written (by decide)
  exact ⟨length, head (by decide), second, shortened 2 _ second, enough, empty ▸ listed⟩

end MethodLines.Path
