import Mathlib.Data.List.Infix
import MethodLines.Path
import MethodLines.Proofs.Text.Pieces

/-! Going down by names and up again. A name that is joined to a path is its last component;
the parent is the path without what was idle at its end, and from there on the way up is the
way down, step by step. -/
namespace MethodLines.Path

variable {path base n : Text} {names pieces : List Text} {absolute : Bool}

/-- A name that a folder can have, other than the two that every folder has for itself and for
its parent. -/
structure IsName (n : Text) : Prop where
  filled : n ≠ []
  whole : '/' ∉ n
  dot : n ≠ ['.']
  dots : n ≠ ['.', '.']

instance (n : Text) : Decidable (IsName n) :=
  decidable_of_iff (n ≠ [] ∧ '/' ∉ n ∧ n ≠ ['.'] ∧ n ≠ ['.', '.'])
    ⟨fun ⟨filled, whole, dot, dots⟩ => ⟨filled, whole, dot, dots⟩,
      fun ⟨filled, whole, dot, dots⟩ => ⟨filled, whole, dot, dots⟩⟩

def below (base : Text) (names : List Text) : Text := names.foldl join base

theorem below_concat (base : Text) (names : List Text) (n : Text) :
    below base (names ++ [n]) = join (below base names) n := by
  rw [below, List.foldl_append]
  rfl

/-- Segments that more can follow: those of a path, but for an empty one at the end. -/
def settled (pieces : List Text) : List Text :=
  if pieces.getLast? = some [] then pieces.dropLast else pieces

theorem settled_concat_nil (pieces : List Text) : settled (pieces ++ [[]]) = pieces := by
  simp [settled]

theorem settled_of_filled (filled : pieces.getLast? ≠ some []) : settled pieces = pieces :=
  if_neg filled

def kept (path : Text) : List Text :=
  (dropIdle (isAbsolute path) (segments path).reverse).reverse

def trimmed (path : Text) : Text := ofSegments (isAbsolute path) (kept path)

theorem ofSegments_segments (path : Text) :
    ofSegments (isAbsolute path) (segments path) = path := by
  unfold ofSegments segments
  rw [show (("/" : String).toList : Text) = ['/'] from rfl, List.intercalate_splitOn]
  unfold isAbsolute
  cases path with
  | nil => rfl
  | cons c path =>
    by_cases root : c = '/'
    · subst root
      rfl
    · simp [root]

theorem slash_not_mem_segments {segment : Text} (member : segment ∈ segments path) :
    '/' ∉ segment := by
  have undivided := (Text.splitOn_eq_iff.mp rfl).undivided segment member
  rwa [Text.singleton_infix_iff] at undivided

theorem splitOn_of_whole (whole : '/' ∉ n) : n.splitOn '/' = [n] := by
  have split : (['/'].intercalate [n]).splitOn '/' = [n] :=
    List.splitOn_intercalate '/' (by simpa using whole) (by simp)
  simpa using split

theorem splitOn_concat (whole : '/' ∉ n) (front : Text) :
    (front ++ '/' :: n).splitOn '/' = front.splitOn '/' ++ [n] := by
  rw [List.splitOn_append_cons_self, splitOn_of_whole whole]

/-- The last piece is empty only where a slash ends the text, or where there is none. -/
theorem ended_of_getLast?_splitOn {t : Text} (last : (t.splitOn '/').getLast? = some []) :
    t = [] ∨ t.getLast? = some '/' := by
  obtain ⟨front, split⟩ := List.getLast?_eq_some_iff.mp last
  have joined : ['/'].intercalate (t.splitOn '/') = t := List.intercalate_splitOn '/'
  rw [split] at joined
  by_cases alone : front = []
  · subst alone
    exact Or.inl (by simpa using joined.symm)
  · rw [Text.intercalate_append ['/'] alone (by simp)] at joined
    exact Or.inr (by simp [← joined])

theorem splitOn_join (whole : '/' ∉ n) (t : Text) :
    (if t = [] ∨ t.getLast? = some '/' then t ++ n else t ++ '/' :: n).splitOn '/' =
      settled (t.splitOn '/') ++ [n] := by
  rcases List.eq_nil_or_concat' t with rfl | ⟨front, c, rfl⟩
  · rw [if_pos (Or.inl rfl), List.nil_append, splitOn_of_whole whole, List.splitOn_nil]
    rfl
  · by_cases slash : c = '/'
    · subst slash
      rw [if_pos (by simp), List.append_assoc, List.singleton_append, splitOn_concat whole,
        splitOn_concat (by simp), settled_concat_nil]
    · have open' : ¬ (front ++ [c] = [] ∨ (front ++ [c]).getLast? = some '/') := by
        simpa using slash
      rw [if_neg open', splitOn_concat whole,
        settled_of_filled fun last => open' (ended_of_getLast?_splitOn last)]

theorem isAbsolute_of_isName (named : IsName n) : isAbsolute n = false := by
  cases n with
  | nil => rfl
  | cons c n =>
    have first : c ≠ '/' := by
      rintro rfl
      exact named.whole List.mem_cons_self
    simpa [isAbsolute] using first

theorem join_of_isName (named : IsName n) (base : Text) : join base n =
    if base = [] ∨ base.getLast? = some '/' then base ++ n else base ++ '/' :: n := by
  rw [join, isAbsolute_of_isName named]
  have tested : (base.isEmpty || decide (base.getLast? = some '/')) = true ↔
      base = [] ∨ base.getLast? = some '/' := by
    simp [List.isEmpty_iff]
  simp only [Bool.false_eq_true, if_false, tested, List.append_assoc]
  rfl

theorem isAbsolute_join (named : IsName n) (base : Text) :
    isAbsolute (join base n) = isAbsolute base := by
  rw [join_of_isName named]
  cases base with
  | nil => rw [if_pos (Or.inl rfl)]; exact isAbsolute_of_isName named
  | cons c base => split <;> rfl

theorem join_ne_nil (named : IsName n) (base : Text) : join base n ≠ [] := by
  rw [join_of_isName named]
  split <;> simp [named.filled]

theorem getLast?_join (named : IsName n) (base : Text) : (join base n).getLast? ≠ some '/' := by
  intro ended
  obtain ⟨front, c, rfl⟩ := (List.eq_nil_or_concat' n).resolve_left named.filled
  have slash : c = '/' := by
    rw [join_of_isName named] at ended
    split at ended
    · rw [← List.append_assoc, List.getLast?_concat] at ended
      exact Option.some.inj ended
    · rw [← List.cons_append, ← List.append_assoc, List.getLast?_concat] at ended
      exact Option.some.inj ended
  exact named.whole (by simp [slash])

/-- A name that is joined stands behind the segments of the path. -/
theorem segments_join (named : IsName n) (base : Text) :
    segments (join base n) = settled (segments base) ++ [n] := by
  unfold segments
  rw [isAbsolute_join named, join_of_isName named]
  cases root : isAbsolute base with
  | false => exact splitOn_join named.whole base
  | true =>
    cases base with
    | nil => cases root
    | cons c t =>
      obtain rfl : c = '/' := by simpa [isAbsolute] using root
      rw [if_pos rfl, if_pos rfl, List.tail_cons, ← splitOn_join named.whole t]
      cases t with
      | nil => rfl
      | cons d t =>
        simp only [List.getLast?_cons_cons, reduceCtorEq, false_or]
        split <;> rfl

theorem isIdle_eq_false (named : IsName n) (leading : Bool) : isIdle leading n = false := by
  simp [isIdle, named.filled, named.dot]

theorem dropIdle_cons_of_isName (named : IsName n) (absolute : Bool) (pieces : List Text) :
    dropIdle absolute (n :: pieces) = n :: pieces := by
  rw [dropIdle, isIdle_eq_false named]
  rfl

theorem kept_eq (path : Text) :
    kept path = (dropIdle (isAbsolute path) (settled (segments path)).reverse).reverse := by
  unfold kept settled
  split
  · rename_i last
    obtain ⟨front, split⟩ := List.getLast?_eq_some_iff.mp last
    rw [split, List.reverse_concat, List.dropLast_concat, dropIdle]
    simp [isIdle]
  · rfl

/-- What is dropped counts as nothing. -/
theorem exists_idle (absolute : Bool) (pieces : List Text) :
    ∃ dropped, pieces = dropped ++ dropIdle absolute pieces ∧
      ∀ segment ∈ dropped, segment = [] ∨ segment = ['.'] := by
  induction pieces with
  | nil => exact ⟨[], rfl, by simp⟩
  | cons first others ih =>
    rw [dropIdle]
    split
    · rename_i idle
      obtain ⟨dropped, whole, empty⟩ := ih
      refine ⟨first :: dropped, congrArg (first :: ·) whole, ?_⟩
      rw [List.forall_mem_cons]
      refine ⟨?_, empty⟩
      simp only [isIdle, Bool.or_eq_true, Bool.and_eq_true, List.isEmpty_iff,
        decide_eq_true_eq] at idle
      exact idle.imp_right And.left
    · exact ⟨[], rfl, by simp⟩

theorem exists_dropped (path : Text) : ∃ dropped, segments path = kept path ++ dropped ∧
    ∀ segment ∈ dropped, segment = [] ∨ segment = ['.'] := by
  obtain ⟨dropped, whole, empty⟩ := exists_idle (isAbsolute path) (segments path).reverse
  refine ⟨dropped.reverse, ?_, by simpa using empty⟩
  rw [kept, ← List.reverse_append, ← whole, List.reverse_reverse]

theorem kept_prefix_settled (path : Text) : kept path <+: settled (segments path) := by
  obtain ⟨dropped, whole, _⟩ := exists_idle (isAbsolute path) (settled (segments path)).reverse
  refine ⟨dropped.reverse, ?_⟩
  rw [kept_eq, ← List.reverse_append, ← whole, List.reverse_reverse]

theorem getLast?_kept (path : Text) : (kept path).getLast? ≠ some [] := by
  have filled : ∀ (absolute : Bool) (pieces : List Text),
      (dropIdle absolute pieces).head? ≠ some [] := by
    intro absolute pieces
    induction pieces with
    | nil => simp [dropIdle]
    | cons first others ih =>
      rw [dropIdle]
      split
      · exact ih
      · rintro equal
        cases equal
        contradiction
  rw [kept, List.getLast?_reverse]
  exact filled _ _

theorem prefix_intercalate_append (separator : Text) (front more : List Text) :
    separator.intercalate front <+: separator.intercalate (front ++ more) := by
  by_cases none_front : front = []
  · subst none_front
    exact List.nil_prefix
  by_cases none_more : more = []
  · rw [none_more, List.append_nil]
  · rw [Text.intercalate_append separator none_front none_more]
    exact List.prefix_append _ _

/-- The first segments of a path make up what it starts with. -/
theorem ofSegments_isPrefix (front : pieces <+: segments path) :
    ofSegments (isAbsolute path) pieces <+: path := by
  obtain ⟨dropped, whole⟩ := front
  obtain ⟨rest, same⟩ := prefix_intercalate_append ['/'] pieces dropped
  refine ⟨rest, ?_⟩
  conv_rhs => rw [← ofSegments_segments path, ofSegments, ← whole]
  rw [ofSegments, List.append_assoc]
  exact congrArg _ same

theorem isAbsolute_ofSegments (front : pieces <+: segments path) :
    isAbsolute (ofSegments (isAbsolute path) pieces) = isAbsolute path := by
  cases root : isAbsolute path with
  | true => rfl
  | false =>
    obtain ⟨rest, whole⟩ := root ▸ ofSegments_isPrefix front
    cases start : ofSegments false pieces with
    | nil => rfl
    | cons c t =>
      rw [start] at whole
      rw [← whole] at root
      exact root

theorem segments_ofSegments (front : pieces <+: segments path) (some_piece : pieces ≠ []) :
    segments (ofSegments (isAbsolute path) pieces) = pieces := by
  have split : segments (ofSegments (isAbsolute path) pieces) =
      (['/'].intercalate pieces).splitOn '/' := by
    unfold segments
    rw [isAbsolute_ofSegments front, ofSegments]
    cases isAbsolute path <;> rfl
  have whole : ∀ segment ∈ pieces, '/' ∉ segment := fun segment member =>
    slash_not_mem_segments (front.subset member)
  rw [split, List.splitOn_intercalate '/' whole some_piece]

theorem kept_isPrefix (path : Text) : kept path <+: segments path := by
  obtain ⟨dropped, whole, _⟩ := exists_dropped path
  exact ⟨dropped, whole.symm⟩

theorem isAbsolute_trimmed (path : Text) : isAbsolute (trimmed path) = isAbsolute path :=
  isAbsolute_ofSegments (kept_isPrefix path)

theorem settled_segments_trimmed (path : Text) : settled (segments (trimmed path)) = kept path := by
  by_cases none_kept : kept path = []
  · rw [trimmed, none_kept]
    cases isAbsolute path <;> rfl
  · rw [trimmed, segments_ofSegments (kept_isPrefix path) none_kept,
      settled_of_filled (getLast?_kept path)]

theorem sublist_intercalate (separator : Text) {short long : List Text} (sub : short.Sublist long) :
    (separator.intercalate short).Sublist (separator.intercalate long) := by
  induction sub with
  | slnil => exact List.Sublist.refl _
  | @cons short long first sub ih =>
    cases long with
    | nil => rw [List.sublist_nil.mp sub]; exact List.nil_sublist _
    | cons second others =>
      rw [List.intercalate_cons_cons]
      exact ih.trans (List.sublist_append_right _ _)
  | @cons_cons short long first sub ih =>
    cases short with
    | nil =>
      rw [List.intercalate_singleton]
      exact (Text.prefix_intercalate separator first long).sublist
    | cons second others =>
      cases long with
      | nil => cases sub
      | cons second' others' =>
        rw [List.intercalate_cons_cons, List.intercalate_cons_cons]
        exact ih.append_left _

/-- What is idle at the end of a path only makes the paths below it longer. -/
theorem join_trimmed_sublist (named : IsName n) (base : Text) :
    (join (trimmed base) n).Sublist (join base n) := by
  have sub : (kept base ++ [n]).Sublist (settled (segments base) ++ [n]) :=
    (kept_prefix_settled base).sublist.append_right [n]
  rw [← ofSegments_segments (join (trimmed base) n), ← ofSegments_segments (join base n),
    segments_join named, segments_join named, isAbsolute_join named, isAbsolute_join named,
    isAbsolute_trimmed, settled_segments_trimmed]
  exact (sublist_intercalate ['/'] sub).append_left _

/-- Going up from a name that was joined leads to the path in front of it, but for what was idle
at its end. -/
theorem parent?_join (named : IsName n) (base : Text) :
    parent? (join base n) = some (trimmed base) := by
  unfold parent?
  dsimp only
  rw [isAbsolute_join named, segments_join named, List.reverse_concat,
    dropIdle_cons_of_isName named]
  show some (ofSegments _ (dropIdle _ (settled (segments base)).reverse).reverse) = _
  rw [← kept_eq]
  rfl

theorem trimmed_join (named : IsName n) (base : Text) : trimmed (join base n) = join base n := by
  have all : kept (join base n) = segments (join base n) := by
    rw [kept, segments_join named, List.reverse_concat, dropIdle_cons_of_isName named,
      List.reverse_cons, List.reverse_reverse]
  rw [trimmed, all, ofSegments_segments]

/-- The folders that are entered on the way down. -/
def descent (base : Text) : List Text → List Text
  | [] => []
  | n :: names => join base n :: descent (join base n) names

theorem exists_of_mem_descent (member : path ∈ descent base names) :
    ∃ inner, inner ≠ [] ∧ inner <+: names ∧ path = below base inner := by
  induction names generalizing base with
  | nil => contradiction
  | cons n names ih =>
    rcases List.mem_cons.mp member with rfl | further
    · exact ⟨[n], by simp, by simp, rfl⟩
    · obtain ⟨inner, _, front, rfl⟩ := ih further
      exact ⟨n :: inner, by simp, by simpa using front, rfl⟩

/-- The way up is the way down in reverse, as far as names were joined. -/
theorem ancestors_below (named : ∀ n ∈ names, IsName n) (base : Text) (count : Nat) :
    ancestors (names.length + count) (below base names) =
      (descent base names).reverse ++
        ancestors count (if names = [] then base else trimmed base) := by
  induction names generalizing base count with
  | nil => simp [descent, below]
  | cons n names ih =>
    obtain ⟨first, others⟩ := List.forall_mem_cons.mp named
    have up := ih others (join base n) (count + 1)
    rw [trimmed_join first, ite_self, ancestors, parent?_join first] at up
    rw [if_neg (by simp), descent, List.reverse_cons, List.append_assoc, List.length_cons,
      Nat.add_assoc, Nat.add_comm 1]
    exact up

theorem ancestors_eq_take (count more : Nat) (path : Text) :
    ancestors count path = (ancestors (count + more) path).take count := by
  induction count generalizing path with
  | zero => rfl
  | succ count ih =>
    rw [Nat.succ_add, ancestors, ancestors, List.take_succ_cons]
    cases parent? path with
    | none => simp
    | some parent => exact congrArg _ (ih parent)

end MethodLines.Path
