import MethodLines.Text.Pieces

/-! Taking texts apart is undone by putting them together. Each way of cutting is
characterized by the parts it gives: at the first occurrence of a character, at a
final one, and at every occurrence of a separator. -/
namespace MethodLines.Text

variable {c : Char} {t piece rest before after : Text} {pieces : List Text}

theorem cut?_cons (c d : Char) (t : Text) :
    cut? c (d :: t) = if d = c then some ([], t) else (cut? c t).map fun p => (d :: p.1, p.2) := by
  by_cases same : d = c
  · simp [cut?, same]
  · have drop : (d :: t).dropWhile (· ≠ c) = t.dropWhile (· ≠ c) :=
      List.dropWhile_cons_of_pos (by simp [same])
    have take : (d :: t).takeWhile (· ≠ c) = d :: t.takeWhile (· ≠ c) :=
      List.takeWhile_cons_of_pos (by simp [same])
    rw [if_neg same, cut?, cut?, drop, take]
    cases t.dropWhile (· ≠ c) with
    | nil => rfl
    | cons _ after => rfl

theorem cut?_eq_some_iff :
    cut? c t = some (before, after) ↔ c ∉ before ∧ t = before ++ c :: after := by
  induction t generalizing before with
  | nil => simp [cut?]
  | cons d t ih =>
    rw [cut?_cons]
    cases before with
    | nil => by_cases same : d = c <;> simp [same]
    | cons e before =>
      by_cases same : d = c
      · simp only [same, if_true, Option.some.injEq, Prod.mk.injEq, List.mem_cons, not_or,
          List.cons_append, List.cons.injEq]
        constructor
        · rintro ⟨equal, _⟩
          simp at equal
        · rintro ⟨⟨different, _⟩, equal, _⟩
          exact absurd equal different
      · simp only [same, if_false, Option.map_eq_some_iff, Prod.mk.injEq, List.cons.injEq,
          List.mem_cons, not_or, List.cons_append]
        constructor
        · rintro ⟨⟨first, last⟩, found, ⟨rfl, rfl⟩, rfl⟩
          obtain ⟨absent, equal⟩ := ih.mp found
          exact ⟨⟨Ne.symm same, absent⟩, rfl, equal⟩
        · rintro ⟨⟨_, absent⟩, rfl, equal⟩
          exact ⟨(before, after), ih.mpr ⟨absent, equal⟩, ⟨rfl, rfl⟩, rfl⟩

theorem cut?_eq_none_iff : cut? c t = none ↔ c ∉ t := by
  induction t with
  | nil => simp [cut?]
  | cons d t ih =>
    rw [cut?_cons]
    by_cases same : d = c
    · simp [same]
    · simp [same, ih, Ne.symm same]

theorem dropFinal_append (c : Char) (t : Text) : dropFinal c (t ++ [c]) = t := by
  simp [dropFinal]

theorem dropFinal_of_not_suffix (other : ¬ [c] <:+ t) : dropFinal c t = t := by
  have last : t.getLast? ≠ some c := by
    intro last
    obtain ⟨before, rfl⟩ := List.getLast?_eq_some_iff.mp last
    exact other (List.suffix_append before [c])
  simp [dropFinal, last]

/-- The character that is dropped is the last one, and only one of them. -/
theorem dropFinal_eq_iff :
    dropFinal c t = rest ↔ t = rest ++ [c] ∨ t = rest ∧ ¬ [c] <:+ t := by
  constructor
  · rintro rfl
    by_cases final : [c] <:+ t
    · obtain ⟨before, rfl⟩ := final
      exact Or.inl (by rw [dropFinal_append])
    · exact Or.inr ⟨(dropFinal_of_not_suffix final).symm, final⟩
  · rintro (rfl | ⟨rfl, other⟩)
    · exact dropFinal_append c rest
    · exact dropFinal_of_not_suffix other

/-- The pieces of a text between the occurrences of a separator, in order. For a
separator that cannot overlap itself these are the pieces found from the left. -/
structure Pieces (separator t : Text) (pieces : List Text) : Prop where
  joined : separator.intercalate pieces = t
  some_piece : pieces ≠ []
  undivided : ∀ piece ∈ pieces, ¬ separator <:+: piece

theorem singleton_infix_iff : [c] <:+: t ↔ c ∈ t := by
  constructor
  · rintro ⟨before, after, rfl⟩
    simp
  · intro member
    obtain ⟨before, after, rfl⟩ := List.append_of_mem member
    exact ⟨before, after, by simp⟩

theorem splitOn_eq_iff : t.splitOn c = pieces ↔ Pieces [c] t pieces := by
  constructor
  · rintro rfl
    refine ⟨List.intercalate_splitOn c, List.splitOn_ne_nil c t, ?_⟩
    intro piece member
    rw [singleton_infix_iff]
    induction t generalizing piece with
    | nil => simp_all
    | cons d t ih =>
      rw [List.splitOn_cons_eq_if_modifyHead] at member
      obtain ⟨first, others, split⟩ := List.exists_cons_of_ne_nil (List.splitOn_ne_nil c t)
      rw [split] at member ih
      by_cases same : d = c
      · simp only [same, beq_self_eq_true, if_true, List.mem_cons] at member
        rcases member with rfl | member
        · simp
        · exact ih piece (List.mem_cons.mpr member)
      · simp only [beq_iff_eq, same, if_false, List.modifyHead_cons, List.mem_cons] at member
        rcases member with rfl | member
        · simpa [Ne.symm same] using ih first List.mem_cons_self
        · exact ih piece (List.mem_cons_of_mem _ member)
  · rintro ⟨rfl, nonempty, undivided⟩
    exact List.splitOn_intercalate c
      (fun piece member => fun inside => undivided piece member (singleton_infix_iff.mpr inside))
      nonempty

/-- Lines that each have an end behind them. Behind the last end there is an empty piece. -/
theorem splitOn_flatten (unbroken : ∀ piece ∈ pieces, c ∉ piece) :
    (pieces.map (· ++ [c])).flatten.splitOn c = pieces ++ [[]] := by
  rw [splitOn_eq_iff]
  refine ⟨?_, by simp, ?_⟩
  · clear unbroken
    induction pieces with
    | nil => rfl
    | cons first others ih =>
      rw [List.cons_append, List.intercalate_cons_of_ne_nil (by simp), ih]
      rfl
  · intro piece member
    rw [singleton_infix_iff]
    rcases List.mem_append.mp member with listed | last
    · exact unbroken piece listed
    · simp_all

theorem mem_intercalate {separator : Text} (outside : c ∉ separator) :
    c ∈ separator.intercalate pieces ↔ ∃ piece ∈ pieces, c ∈ piece := by
  induction pieces with
  | nil => simp
  | cons first others ih =>
    cases others with
    | nil => simp
    | cons second others =>
      rw [List.intercalate_cons_cons, List.mem_append, List.mem_append, ih]
      simp [outside]

theorem intercalate_append (separator : Text) {front back : List Text} (some_front : front ≠ [])
    (some_back : back ≠ []) : separator.intercalate (front ++ back) =
      separator.intercalate front ++ (separator ++ separator.intercalate back) := by
  induction front with
  | nil => contradiction
  | cons first others ih =>
    cases others with
    | nil =>
      rw [List.singleton_append, List.intercalate_cons_of_ne_nil some_back,
        List.intercalate_singleton, List.append_assoc]
    | cons second others =>
      rw [List.cons_append, List.cons_append, List.intercalate_cons_cons, ← List.cons_append,
        ih (by simp), List.intercalate_cons_cons]
      simp only [List.append_assoc]

/-- A separator that is put between two texts separates what each of them is cut into. -/
theorem Pieces.append {separator u : Text} {others : List Text} (front : Pieces separator t pieces)
    (back : Pieces separator u others) :
    Pieces separator (t ++ (separator ++ u)) (pieces ++ others) where
  joined := by
    rw [intercalate_append separator front.some_piece back.some_piece, front.joined, back.joined]
  some_piece := List.append_ne_nil_of_left_ne_nil front.some_piece others
  undivided piece member :=
    (List.mem_append.mp member).elim (front.undivided piece) (back.undivided piece)

theorem Pieces.length_eq_count (cut : Pieces [c] t pieces) : pieces.length = t.count c + 1 := by
  obtain ⟨rfl, nonempty, undivided⟩ := cut
  simp only [singleton_infix_iff] at undivided
  induction pieces with
  | nil => contradiction
  | cons first others ih =>
    obtain ⟨start, remaining⟩ := List.forall_mem_cons.mp undivided
    have absent := List.count_eq_zero_of_not_mem start
    cases others with
    | nil => simp [absent]
    | cons second others =>
      rw [List.intercalate_cons_cons, List.count_append, List.count_append, absent,
        List.length_cons, ih (by simp) remaining]
      simp [Nat.add_comm]

theorem prefix_intercalate (separator piece : Text) (pieces : List Text) :
    piece <+: separator.intercalate (piece :: pieces) := by
  cases pieces with
  | nil => simp
  | cons second others =>
    rw [List.intercalate_cons_cons, List.append_assoc]
    exact List.prefix_append _ _

theorem separator_infix_cons :
    [',', ' '] <:+: c :: t ↔ (c = ',' ∧ t.head? = some ' ') ∨ [',', ' '] <:+: t := by
  rw [List.infix_cons_iff, List.cons_prefix_cons]
  cases t with
  | nil => simp
  | cons d t => simp [eq_comm]

/-- A blank between two words makes a separator only of a comma before it. -/
theorem separator_infix_words {word : Text} (unbroken : ' ' ∉ piece) (last : ' ' ∉ word) :
    [',', ' '] <:+: piece ++ ' ' :: word ↔ piece.getLast? = some ',' := by
  induction piece with
  | nil =>
    have absent : ¬ [',', ' '] <:+: word := fun inside => last (inside.mem (by simp))
    rw [List.nil_append, separator_infix_cons]
    simp [absent]
  | cons c piece ih =>
    simp only [List.mem_cons, not_or] at unbroken
    rw [List.cons_append, separator_infix_cons, ih unbroken.2]
    cases piece with
    | nil => simp
    | cons d piece =>
      have other : d ≠ ' ' := by
        rintro rfl
        exact unbroken.2 List.mem_cons_self
      simp [List.getLast?_cons_cons, other]

theorem fragments_cons (inside : ¬ (c = ',' ∧ t.head? = some ' ')) :
    fragments (c :: t) = prepend c (fragments t) := by
  rw [fragments.eq_3]
  intro rest comma blank
  exact inside ⟨comma, by simp [blank]⟩

theorem fragments_of_undivided (undivided : ¬ [',', ' '] <:+: piece) :
    fragments piece = [piece] := by
  induction piece with
  | nil => rfl
  | cons c piece ih =>
    rw [separator_infix_cons, not_or] at undivided
    rw [fragments_cons undivided.1, ih undivided.2]
    rfl

theorem fragments_append (undivided : ¬ [',', ' '] <:+: piece) (t : Text) :
    fragments (piece ++ ',' :: ' ' :: t) = piece :: fragments t := by
  induction piece with
  | nil => rfl
  | cons c piece ih =>
    rw [separator_infix_cons, not_or] at undivided
    have inside : ¬ (c = ',' ∧ (piece ++ ',' :: ' ' :: t).head? = some ' ') := by
      -- a comma at the end of the piece is followed by the comma of the separator
      cases piece with
      | nil => simp
      | cons d piece => simpa using undivided.1
    rw [List.cons_append, fragments_cons inside, ih undivided.2]
    rfl

theorem fragments_intercalate (nonempty : pieces ≠ [])
    (undivided : ∀ piece ∈ pieces, ¬ [',', ' '] <:+: piece) :
    fragments ([',', ' '].intercalate pieces) = pieces := by
  induction pieces with
  | nil => contradiction
  | cons first others ih =>
    obtain ⟨start, remaining⟩ := List.forall_mem_cons.mp undivided
    cases others with
    | nil => simpa using fragments_of_undivided start
    | cons second others =>
      rw [List.intercalate_cons_cons, List.append_assoc, List.cons_append, List.cons_append,
        List.nil_append, fragments_append start, ih (by simp) remaining]

theorem fragments_pieces (t : Text) : Pieces [',', ' '] t (fragments t) := by
  induction t using fragments.induct with
  | case1 => exact ⟨by simp [fragments], by simp [fragments], by simp [fragments]⟩
  | case2 t ih =>
    obtain ⟨joined, nonempty, undivided⟩ := ih
    refine ⟨?_, by simp [fragments], ?_⟩
    · rw [fragments, List.intercalate_cons_of_ne_nil nonempty, joined]
      rfl
    · intro piece member
      rw [fragments, List.mem_cons] at member
      rcases member with rfl | member
      · simp
      · exact undivided piece member
  | case3 c t other ih =>
    obtain ⟨joined, _, undivided⟩ := ih
    have inside : ¬ (c = ',' ∧ t.head? = some ' ') := by
      rintro ⟨comma, blank⟩
      obtain ⟨rest, equal⟩ := List.head?_eq_some_iff.mp blank
      exact other rest comma equal
    rw [fragments_cons inside]
    cases found : fragments t with
    | nil => simp_all
    | cons first others =>
      rw [found] at joined undivided
      have start : first <+: t := joined ▸ prefix_intercalate _ first others
      refine ⟨?_, by simp [prepend], ?_⟩
      · rw [← joined]
        cases others <;> simp [prepend]
      · intro piece member
        rcases List.mem_cons.mp member with rfl | member
        · rw [separator_infix_cons, not_or]
          refine ⟨?_, undivided first List.mem_cons_self⟩
          rintro ⟨comma, blank⟩
          obtain ⟨rest, rfl⟩ := List.head?_eq_some_iff.mp blank
          obtain ⟨tail, rfl⟩ := start
          exact inside ⟨comma, rfl⟩
        · exact undivided piece (List.mem_cons_of_mem _ member)

theorem fragments_eq_iff : fragments t = pieces ↔ Pieces [',', ' '] t pieces := by
  constructor
  · rintro rfl
    exact fragments_pieces t
  · rintro ⟨rfl, nonempty, undivided⟩
    exact fragments_intercalate nonempty undivided

/-- Wherever ", " is put into a text, it is found again there: no comma before it and no blank
behind it makes another separator of it. -/
theorem fragments_join (front back : Text) :
    fragments (front ++ (", " ++ back)) = fragments front ++ fragments back :=
  fragments_eq_iff.mpr ((fragments_pieces front).append (fragments_pieces back))

end MethodLines.Text
