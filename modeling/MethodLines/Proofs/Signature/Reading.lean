import MethodLines.Proofs.Outcome
import MethodLines.Proofs.Text.Pieces
import MethodLines.Signature.Reading

/-! What each part of reading a line accepts, and how it fails otherwise. Both are
told in terms of the pieces of the text and not of the way it is taken apart. -/
namespace MethodLines

namespace Argument

/-- Two words in the place of a type and a name: neither is empty nor holds a blank. -/
def Words (a : Argument) : Prop := a.type ≠ [] ∧ ' ' ∉ a.type ∧ a.name ≠ [] ∧ ' ' ∉ a.name

theorem render_eq (a : Argument) : a.render = a.type ++ ' ' :: a.name := by
  show (a.type ++ [' ']) ++ a.name = _
  simp

theorem Words.undivided {a : Argument} (words : a.Words) :
    ¬ [',', ' '] <:+: a.render ↔ a.type.getLast? ≠ some ',' := by
  rw [render_eq, Text.separator_infix_words words.2.1 words.2.2.2]

end Argument

namespace Signature

open Text

variable {head rest body fragment : Text} {a : Argument} {e : Rejection}

def places : Nat → List TokenPlace
  | 2 => [.returnType, .name]
  | 3 => [.modifier, .returnType, .name]
  | _ => []

def FirstEmpty (tokens : List Text) (place : TokenPlace) : Prop :=
  ∃ before after, tokens = before ++ [] :: after ∧ [] ∉ before ∧
    (places tokens.length)[before.length]? = some place

theorem emptyPlace?_eq_none_iff (places : List TokenPlace) {tokens : List Text}
    (paired : places.length = tokens.length) :
    emptyPlace? (places.zip tokens) = none ↔ [] ∉ tokens := by
  induction tokens generalizing places with
  | nil => simp [emptyPlace?]
  | cons token tokens ih =>
    cases places with
    | nil => simp at paired
    | cons place places =>
      cases token with
      | nil => simp [emptyPlace?]
      | cons c token =>
        rw [List.zip_cons_cons, emptyPlace?, ih _ (by simpa using paired)]
        · simp
        · simp

theorem emptyPlace?_eq_some_iff (places : List TokenPlace) {tokens : List Text}
    {place : TokenPlace} (paired : places.length = tokens.length) :
    emptyPlace? (places.zip tokens) = some place ↔
      ∃ before after, tokens = before ++ [] :: after ∧ [] ∉ before ∧
        places[before.length]? = some place := by
  induction tokens generalizing places with
  | nil => simp [emptyPlace?]
  | cons token tokens ih =>
    cases places with
    | nil => simp at paired
    | cons first places =>
      cases token with
      | nil =>
        simp only [List.zip_cons_cons, emptyPlace?, Option.some.injEq]
        constructor
        · rintro rfl
          exact ⟨[], tokens, rfl, by simp, rfl⟩
        · rintro ⟨before, after, split, filled, found⟩
          cases before with
          | nil => simpa using found
          | cons token before =>
            cases split
            simp at filled
      | cons c token =>
        rw [List.zip_cons_cons, emptyPlace?, ih _ (by simpa using paired)]
        · constructor
          · rintro ⟨before, after, rfl, filled, found⟩
            exact ⟨(c :: token) :: before, after, rfl, by simpa using filled, by simpa using found⟩
          · rintro ⟨before, after, split, filled, found⟩
            cases before with
            | nil => cases split
            | cons token before =>
              cases split
              exact ⟨before, after, rfl, by simp_all, by simpa using found⟩
        · simp

theorem readHead_of_filled {modifier : Option Text} {returnType name : Text}
    (cut : Pieces [' '] head (modifier.toList ++ [returnType, name]))
    (filled : [] ∉ modifier.toList ++ [returnType, name]) :
    readHead head = .ok (modifier, returnType, name) := by
  have split := splitOn_eq_iff.mpr cut
  cases modifier with
  | none =>
    have found := (emptyPlace?_eq_none_iff (places 2) rfl).mpr filled
    simp only [readHead, split, Option.toList_none, List.nil_append]
    rw [show emptyPlace? [(.returnType, returnType), (.name, name)] = none from found]
  | some modifier =>
    have found := (emptyPlace?_eq_none_iff (places 3) rfl).mpr filled
    simp only [readHead, split, Option.toList_some, List.cons_append, List.nil_append]
    rw [show emptyPlace? [(.modifier, modifier), (.returnType, returnType), (.name, name)] = none
      from found]

theorem readHead_of_firstEmpty {tokens : List Text} {place : TokenPlace}
    (cut : Pieces [' '] head tokens) (first : FirstEmpty tokens place) :
    readHead head = .error (.emptyToken head place) := by
  have split := splitOn_eq_iff.mpr cut
  match tokens, first with
  | [returnType, name], first =>
    have found := (emptyPlace?_eq_some_iff (places 2) rfl).mpr first
    simp only [readHead, split]
    rw [show emptyPlace? [(.returnType, returnType), (.name, name)] = some place from found]
  | [modifier, returnType, name], first =>
    have found := (emptyPlace?_eq_some_iff (places 3) rfl).mpr first
    simp only [readHead, split]
    rw [show emptyPlace? [(.modifier, modifier), (.returnType, returnType), (.name, name)] =
      some place from found]
  | [], ⟨before, after, _, _, found⟩ | [_], ⟨before, after, _, _, found⟩
  | _ :: _ :: _ :: _ :: _, ⟨before, after, _, _, found⟩ => simp [places] at found

theorem readHead_of_count (notTwo : head.count ' ' ≠ 1) (notThree : head.count ' ' ≠ 2) :
    readHead head = .error (.tokenCount head (head.count ' ' + 1)) := by
  have count := (splitOn_eq_iff.mp rfl : Pieces [' '] head (head.splitOn ' ')).length_eq_count
  unfold readHead
  split
  · simp_all
  · simp_all
  · rw [count]

/-- The three ways in which reading the head can go. -/
theorem head_cases (head : Text) :
    (head.count ' ' ≠ 1 ∧ head.count ' ' ≠ 2) ∨
    (∃ tokens place, Pieces [' '] head tokens ∧ FirstEmpty tokens place) ∨
    ∃ (modifier : Option Text) (returnType name : Text),
      Pieces [' '] head (modifier.toList ++ [returnType, name]) ∧
        [] ∉ modifier.toList ++ [returnType, name] := by
  have cut : Pieces [' '] head (head.splitOn ' ') := splitOn_eq_iff.mp rfl
  have count := cut.length_eq_count
  generalize head.splitOn ' ' = tokens at cut count
  match tokens, cut, count with
  | [returnType, name], cut, _ =>
    cases found : emptyPlace? ((places 2).zip [returnType, name]) with
    | none =>
      have filled := (emptyPlace?_eq_none_iff (places 2) rfl).mp found
      exact Or.inr (Or.inr ⟨none, returnType, name, cut, filled⟩)
    | some place =>
      have first := (emptyPlace?_eq_some_iff (places 2) rfl).mp found
      exact Or.inr (Or.inl ⟨_, place, cut, first⟩)
  | [modifier, returnType, name], cut, _ =>
    cases found : emptyPlace? ((places 3).zip [modifier, returnType, name]) with
    | none =>
      have filled := (emptyPlace?_eq_none_iff (places 3) rfl).mp found
      exact Or.inr (Or.inr ⟨some modifier, returnType, name, cut, filled⟩)
    | some place =>
      have first := (emptyPlace?_eq_some_iff (places 3) rfl).mp found
      exact Or.inr (Or.inl ⟨_, place, cut, first⟩)
  | [], cut, _ => exact absurd rfl cut.some_piece
  | [_], _, count | _ :: _ :: _ :: _ :: _, _, count =>
    simp only [List.length_cons, List.length_nil] at count
    exact Or.inl (by omega)

theorem readHead_ok_iff {modifier : Option Text} {returnType name : Text} :
    readHead head = .ok (modifier, returnType, name) ↔
      Pieces [' '] head (modifier.toList ++ [returnType, name]) ∧
        [] ∉ modifier.toList ++ [returnType, name] := by
  constructor
  · intro read
    rcases head_cases head with ⟨notTwo, notThree⟩ | ⟨tokens, place, cut, first⟩ |
      ⟨_, _, _, cut, filled⟩
    · rw [readHead_of_count notTwo notThree] at read
      contradiction
    · rw [readHead_of_firstEmpty cut first] at read
      contradiction
    · rw [readHead_of_filled cut filled] at read
      cases read
      exact ⟨cut, filled⟩
  · rintro ⟨cut, filled⟩
    exact readHead_of_filled cut filled

theorem readHead_error_iff :
    readHead head = .error e ↔
      (head.count ' ' ≠ 1 ∧ head.count ' ' ≠ 2 ∧ e = .tokenCount head (head.count ' ' + 1)) ∨
      ∃ tokens place, Pieces [' '] head tokens ∧ FirstEmpty tokens place ∧
        e = .emptyToken head place := by
  constructor
  · intro failed
    rcases head_cases head with ⟨notTwo, notThree⟩ | ⟨tokens, place, cut, first⟩ |
      ⟨_, _, _, cut, filled⟩
    · rw [readHead_of_count notTwo notThree] at failed
      exact Or.inl ⟨notTwo, notThree, (Except.error.inj failed).symm⟩
    · rw [readHead_of_firstEmpty cut first] at failed
      exact Or.inr ⟨tokens, place, cut, first, (Except.error.inj failed).symm⟩
    · rw [readHead_of_filled cut filled] at failed
      contradiction
  · rintro (⟨notTwo, notThree, rfl⟩ | ⟨tokens, place, cut, first, rfl⟩)
    · exact readHead_of_count notTwo notThree
    · exact readHead_of_firstEmpty cut first

theorem readBody_ok_iff :
    readBody rest = .ok body ↔
      '(' ∉ body ∧ ')' ∉ body ∧ (rest = body ∨ rest = body ++ [')']) := by
  unfold readBody
  constructor
  · intro read
    split at read
    · contradiction
    · rename_i unopened
      split at read
      · contradiction
      · rename_i unclosed
        cases read
        rcases dropFinal_eq_iff.mp (rfl : dropFinal ')' rest = _) with final | ⟨same, _⟩
        · refine ⟨?_, unclosed, Or.inr final⟩
          intro inside
          exact unopened (final ▸ List.mem_append_left _ inside)
        · exact ⟨same ▸ unopened, unclosed, Or.inl same⟩
  · rintro ⟨unopened, unclosed, rfl | rfl⟩
    · have final : ¬ [')'] <:+ rest := fun suffix => unclosed (suffix.mem (by simp))
      simp [unopened, unclosed, dropFinal_of_not_suffix final]
    · simp [unopened, unclosed, dropFinal_append]

theorem readBody_error_iff :
    readBody rest = .error e ↔
      ('(' ∈ rest ∧ e = .reopened rest) ∨
      ('(' ∉ rest ∧ ')' ∈ dropFinal ')' rest ∧ e = .closedWithin rest) := by
  unfold readBody
  by_cases opened : '(' ∈ rest
  · simp [opened, eq_comm]
  · by_cases closed : ')' ∈ dropFinal ')' rest
    · simp [opened, closed, eq_comm]
    · simp [opened, closed]

theorem readArgument_ok_iff :
    readArgument fragment = .ok a ↔ a.render = fragment ∧ a.Words := by
  unfold readArgument
  rw [Argument.render_eq]
  constructor
  · intro read
    split at read
    · rename_i type name cut
      obtain ⟨unbroken, rfl⟩ := cut?_eq_some_iff.mp cut
      split at read
      · rename_i words
        cases read
        exact ⟨rfl, words.1, unbroken, words.2⟩
      · contradiction
    · contradiction
  · rintro ⟨rfl, typed, unbroken, named, last⟩
    rw [cut?_eq_some_iff.mpr ⟨unbroken, rfl⟩]
    simp [typed, named, last]

theorem readArgument_error_iff :
    readArgument fragment = .error e ↔
      (¬ ∃ a : Argument, a.Words ∧ a.render = fragment) ∧ e = .argument fragment := by
  cases read : readArgument fragment with
  | ok a =>
    obtain ⟨rendered, words⟩ := readArgument_ok_iff.mp read
    simp only [reduceCtorEq, false_iff, not_and]
    intro unreadable
    exact absurd ⟨a, words, rendered⟩ unreadable
  | error d =>
    have only : d = .argument fragment := by
      unfold readArgument at read
      split at read
      · split at read
        · contradiction
        · exact (Except.error.inj read).symm
      · exact (Except.error.inj read).symm
    have unreadable : ¬ ∃ a : Argument, a.Words ∧ a.render = fragment := by
      rintro ⟨a, words, rendered⟩
      rw [readArgument_ok_iff.mpr ⟨rendered, words⟩] at read
      contradiction
    rw [only, Except.error.injEq, eq_comm]
    exact ⟨fun same => ⟨unreadable, same⟩, fun h => h.2⟩

theorem readArgument_forall₂ {pieces : List Text} {arguments : List Argument} :
    List.Forall₂ (fun piece a => readArgument piece = .ok a) pieces arguments ↔
      pieces = arguments.map Argument.render ∧ ∀ a ∈ arguments, a.Words := by
  simp only [readArgument_ok_iff]
  constructor
  · intro pairs
    induction pairs with
    | nil => simp
    | cons first _ ih =>
      obtain ⟨rendered, words⟩ := first
      obtain ⟨rfl, others⟩ := ih
      exact ⟨by rw [List.map_cons, rendered], List.forall_mem_cons.mpr ⟨words, others⟩⟩
  · rintro ⟨rfl, words⟩
    rw [List.forall₂_map_left_iff, List.forall₂_same]
    exact fun a member => ⟨rfl, words a member⟩

/-- Rendered arguments stay apart unless a type ends in a comma. -/
theorem pieces_rendered {arguments : List Argument} (words : ∀ a ∈ arguments, a.Words) :
    Pieces [',', ' '] body (arguments.map Argument.render) ↔
      [',', ' '].intercalate (arguments.map Argument.render) = body ∧ arguments ≠ [] ∧
        ∀ a ∈ arguments, a.type.getLast? ≠ some ',' := by
  constructor
  · rintro ⟨joined, nonempty, undivided⟩
    refine ⟨joined, by simpa using nonempty, ?_⟩
    intro a member
    exact (words a member).undivided.mp (undivided a.render (List.mem_map_of_mem member))
  · rintro ⟨joined, nonempty, commas⟩
    refine ⟨joined, by simpa using nonempty, ?_⟩
    intro piece member
    obtain ⟨a, listed, rfl⟩ := List.mem_map.mp member
    exact (words a listed).undivided.mpr (commas a listed)

theorem intercalate_render_eq_nil {arguments : List Argument} :
    [',', ' '].intercalate (arguments.map Argument.render) = [] ↔ arguments = [] := by
  cases arguments with
  | nil => simp
  | cons a arguments =>
    have start := prefix_intercalate [',', ' '] a.render (arguments.map Argument.render)
    rw [List.map_cons]
    constructor
    · intro joined
      rw [joined, List.prefix_nil, Argument.render_eq] at start
      simp at start
    · simp

theorem readArguments_ok_iff {arguments : List Argument} :
    readArguments body = .ok arguments ↔
      [',', ' '].intercalate (arguments.map Argument.render) = body ∧
        ∀ a ∈ arguments, a.Words ∧ a.type.getLast? ≠ some ',' := by
  unfold readArguments
  by_cases empty : body = []
  · subst body
    rw [if_pos rfl, intercalate_render_eq_nil, Except.ok.injEq, eq_comm]
    constructor
    · rintro rfl
      simp
    · exact fun h => h.1
  · rw [if_neg empty, Outcome.mapM_ok_iff, readArgument_forall₂, fragments_eq_iff]
    constructor
    · rintro ⟨cut, words⟩
      obtain ⟨joined, _, commas⟩ := (pieces_rendered words).mp cut
      exact ⟨joined, fun a member => ⟨words a member, commas a member⟩⟩
    · rintro ⟨joined, valid⟩
      have words : ∀ a ∈ arguments, a.Words := fun a member => (valid a member).1
      have nonempty : arguments ≠ [] := by
        rintro rfl
        exact empty joined.symm
      exact ⟨(pieces_rendered words).mpr
        ⟨joined, nonempty, fun a member => (valid a member).2⟩, words⟩

theorem readArguments_error_iff :
    readArguments body = .error e ↔ body ≠ [] ∧ ∃ before fragment after,
      Pieces [',', ' '] body (before ++ fragment :: after) ∧
        (∀ f ∈ before, ∃ a : Argument, a.Words ∧ a.render = f) ∧
        (¬ ∃ a : Argument, a.Words ∧ a.render = fragment) ∧ e = .argument fragment := by
  unfold readArguments
  by_cases empty : body = []
  · simp [empty]
  · rw [if_neg empty, Outcome.mapM_error_iff]
    simp only [fragments_eq_iff, readArgument_error_iff, readArgument_ok_iff, ne_eq, empty,
      not_false_eq_true, true_and, and_comm]

end Signature
end MethodLines
