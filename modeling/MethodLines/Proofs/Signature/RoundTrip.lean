import MethodLines.Proofs.Signature.Reading

/-! Reading inverts rendering: exactly the lines of well-formed records are read, each
as the record it is the line of, with the closing parenthesis written or left out. -/
namespace MethodLines.Signature

open Text

variable {line : Text} {s : Signature}

theorem head_eq (s : Signature) : s.head = [' '].intercalate s.tokens := rfl

theorem body_eq (s : Signature) :
    s.body = [',', ' '].intercalate (s.arguments.map Argument.render) := rfl

theorem render_eq (s : Signature) : s.render = s.head ++ '(' :: (s.body ++ [')']) := by
  show (s.head ++ ['(']) ++ s.body ++ [')'] = _
  simp

theorem mem_body {c : Char} (letter : c ∉ [',', ' ']) :
    c ∈ s.body ↔ ∃ a ∈ s.arguments, c ∈ a.type ∨ c ∈ a.name := by
  rw [body_eq, mem_intercalate letter]
  simp only [List.mem_cons, not_or] at letter
  simp [Argument.render_eq, letter]

/-- The tokens of the head, told by its text. -/
theorem headTokens_iff : (∀ t ∈ s.tokens, HeadToken t) ↔
    Pieces [' '] s.head s.tokens ∧ [] ∉ s.tokens ∧ '(' ∉ s.head := by
  rw [head_eq, mem_intercalate (by decide)]
  constructor
  · intro valid
    refine ⟨⟨rfl, by simp [tokens], ?_⟩, ?_, ?_⟩
    · intro t member
      rw [singleton_infix_iff]
      exact (valid t member).2.1
    · intro member
      exact (valid [] member).1 rfl
    · rintro ⟨t, member, inside⟩
      exact (valid t member).2.2 inside
  · rintro ⟨cut, filled, unopened⟩ t member
    refine ⟨?_, ?_, fun inside => unopened ⟨t, member, inside⟩⟩
    · rintro rfl
      exact filled member
    · exact singleton_infix_iff.not.mp (cut.undivided t member)

/-- The arguments, with the parentheses told by the whole body. -/
theorem arguments_iff : (∀ a ∈ s.arguments, a.WellFormed) ↔
    ('(' ∉ s.body ∧ ')' ∉ s.body) ∧ ∀ a ∈ s.arguments, a.Words ∧ a.type.getLast? ≠ some ',' := by
  rw [mem_body (by decide), mem_body (by decide)]
  constructor
  · intro valid
    refine ⟨⟨?_, ?_⟩, ?_⟩
    · rintro ⟨a, member, inside⟩
      obtain ⟨_, _, typed, _, _, _, _, named, _⟩ := valid a member
      exact inside.elim typed named
    · rintro ⟨a, member, inside⟩
      obtain ⟨_, _, _, typed, _, _, _, _, named⟩ := valid a member
      exact inside.elim typed named
    · intro a member
      obtain ⟨typed, unbroken, _, _, comma, named, last, _, _⟩ := valid a member
      exact ⟨⟨typed, unbroken, named, last⟩, comma⟩
  · rintro ⟨⟨unopened, unclosed⟩, valid⟩ a member
    obtain ⟨⟨typed, unbroken, named, last⟩, comma⟩ := valid a member
    exact ⟨typed, unbroken, fun inside => unopened ⟨a, member, Or.inl inside⟩,
      fun inside => unclosed ⟨a, member, Or.inl inside⟩, comma, named, last,
      fun inside => unopened ⟨a, member, Or.inr inside⟩,
      fun inside => unclosed ⟨a, member, Or.inr inside⟩⟩

theorem wellFormed_iff : s.WellFormed ↔
    (Pieces [' '] s.head s.tokens ∧ [] ∉ s.tokens ∧ '(' ∉ s.head) ∧
      ('(' ∉ s.body ∧ ')' ∉ s.body) ∧
      ∀ a ∈ s.arguments, a.Words ∧ a.type.getLast? ≠ some ',' := by
  rw [WellFormed, headTokens_iff, arguments_iff]

/-- What a line has to be to be read, with the text behind the first parenthesis kept
apart from the head. -/
theorem read_iff_parts : read line = .ok s ↔ s.WellFormed ∧
    (line = s.head ++ '(' :: s.body ∨ line = s.head ++ '(' :: (s.body ++ [')'])) := by
  rw [wellFormed_iff]
  constructor
  · intro accepted
    unfold read at accepted
    split at accepted
    · contradiction
    · rename_i head rest cut
      obtain ⟨unopened, rfl⟩ := cut?_eq_some_iff.mp cut
      obtain ⟨⟨modifier, returnType, name⟩, headRead, accepted⟩ := Outcome.bind_ok_iff.mp accepted
      obtain ⟨body, bodyRead, accepted⟩ := Outcome.bind_ok_iff.mp accepted
      obtain ⟨arguments, argumentsRead, accepted⟩ := Outcome.bind_ok_iff.mp accepted
      cases accepted
      obtain ⟨tokens, filled⟩ := readHead_ok_iff.mp headRead
      obtain ⟨parentheses, closed, ending⟩ := readBody_ok_iff.mp bodyRead
      obtain ⟨rfl, valid⟩ := readArguments_ok_iff.mp argumentsRead
      have headJoined := tokens.joined
      subst headJoined
      refine ⟨⟨⟨tokens, filled, unopened⟩, ⟨parentheses, closed⟩, valid⟩, ?_⟩
      rcases ending with rfl | rfl
      · exact Or.inl rfl
      · exact Or.inr rfl
  · rintro ⟨⟨⟨tokens, filled, unopened⟩, ⟨parentheses, closed⟩, valid⟩, ending⟩
    have headRead : readHead s.head = .ok (s.modifier, s.returnType, s.name) :=
      readHead_ok_iff.mpr ⟨tokens, filled⟩
    have argumentsRead : readArguments s.body = .ok s.arguments :=
      readArguments_ok_iff.mpr ⟨rfl, valid⟩
    have accepted : ∀ rest, rest = s.body ∨ rest = s.body ++ [')'] →
        read (s.head ++ '(' :: rest) = .ok s := by
      intro rest ending
      have bodyRead := readBody_ok_iff.mpr ⟨parentheses, closed, ending⟩
      simp only [read, cut?_eq_some_iff.mpr ⟨unopened, rfl⟩, headRead, bodyRead, argumentsRead,
        bind, Except.bind, pure, Except.pure]
    rcases ending with rfl | rfl
    · exact accepted _ (Or.inl rfl)
    · exact accepted _ (Or.inr rfl)

theorem read_render (valid : s.WellFormed) : read s.render = .ok s :=
  read_iff_parts.mpr ⟨valid, Or.inr s.render_eq⟩

/-- A line without its closing parenthesis is read like the whole line. -/
theorem append_close_iff : line ++ [')'] = s.render ↔ line = s.head ++ '(' :: s.body := by
  have regrouped : s.render = (s.head ++ '(' :: s.body) ++ [')'] := by
    rw [render_eq, List.append_assoc, List.cons_append]
  rw [regrouped, List.append_left_inj]

/-- Up to its body the line of a well-formed record does not end in a closing parenthesis. -/
theorem not_closed_of_wellFormed (valid : s.WellFormed) :
    ¬ [')'] <:+ s.head ++ '(' :: s.body := by
  obtain ⟨_, ⟨_, unclosed⟩, _⟩ := wellFormed_iff.mp valid
  intro final
  have behind : [')'] <:+ '(' :: s.body :=
    List.suffix_of_suffix_length_le final (List.suffix_append _ _) (by simp)
  exact unclosed (by simpa using behind.mem (List.mem_singleton_self _))

theorem read_wellFormed (accepted : read line = .ok s) : s.WellFormed :=
  (read_iff_parts.mp accepted).1

/-- The accepted lines are the lines of well-formed records, up to the closing
parenthesis, and each stands for one record. -/
theorem read_eq_ok_iff (line : Text) (s : Signature) :
    read line = .ok s ↔ s.WellFormed ∧ (line = s.render ∨ line ++ ")" = s.render) := by
  rw [read_iff_parts, render_eq, or_comm, ← render_eq]
  exact and_congr_right fun _ => or_congr_right append_close_iff.symm

end MethodLines.Signature
