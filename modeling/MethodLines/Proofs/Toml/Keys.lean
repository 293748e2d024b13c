import MethodLines.Proofs.Toml.Strings
import MethodLines.Toml.Reading

/-! The texts of TOML keys, dotted or not, and of the layout between keys and values. -/
namespace MethodLines.Toml

variable {c : Char} {path : List Text} {key lead s t u : Text}

/-- Blanks, line ends and comments. -/
inductive Layout : Text → Prop where
  | nil : Layout []
  | blank {c : Char} {t : Text} : c = ' ' ∨ c = '\t' → Layout t → Layout (c :: t)
  | lineEnd {e t : Text} : e ∈ lineEnds → Layout t → Layout (e ++ t)
  | comment {s e t : Text} : (∀ c ∈ s, Printed c) → e ∈ lineEnds → Layout t →
      Layout ('#' :: (s ++ (e ++ t)))

def layoutChars : Text := [' ', '\t', '\n', '\r', '#']

inductive KeyText : Text → Text → Prop where
  | bare {t : Text} : t ≠ [] → (∀ c ∈ t, c.isAlphanum = true ∨ c = '_' ∨ c = '-') → KeyText t t
  | quoted {s t : Text} : QuotedText s t → KeyText s t
  | literal {s t : Text} : LiteralText s t → KeyText s t

/-- A dotted key. Blanks may stand around the dots. -/
inductive PathText : List Text → Text → Text → Prop where
  | last {key t : Text} : KeyText key t → PathText [] key t
  | dotted {path : List Text} {first key t b b' u : Text} : KeyText first t →
      (∀ c ∈ b ++ b', c = ' ' ∨ c = '\t') → PathText path key u →
      PathText (first :: path) key (t ++ (b ++ '.' :: (b' ++ u)))

theorem skipLayout_cons (lineEnd : c ≠ '\n') (returned : c ≠ '\r') (inComment : Bool) (t : Text) :
    skipLayout inComment (c :: t) =
      if inComment then if isPrintable c then skipLayout true t else none
      else if c = ' ' || c = '\t' then skipLayout false t
      else if c = '#' then skipLayout true t else some (c :: t) :=
  skipLayout.eq_4 _ _ _ lineEnd fun _ other _ => returned other

theorem skipLayout_ink (ink : c ∉ layoutChars) (t : Text) :
    skipLayout false (c :: t) = some (c :: t) := by
  simp only [layoutChars, List.mem_cons, List.not_mem_nil, or_false, not_or] at ink
  obtain ⟨space, tab, lineEnd, returned, mark⟩ := ink
  rw [skipLayout_cons lineEnd returned]
  simp [space, tab, mark]

theorem skipLayout_lineEnd {e : Text} (ended : e ∈ lineEnds) (inComment : Bool) (t : Text) :
    skipLayout inComment (e ++ t) = skipLayout false t := by
  rcases mem_lineEnds.mp ended with rfl | rfl <;> rfl

theorem skipLayout_comment (printed : ∀ c ∈ s, Printed c) (t : Text) :
    skipLayout true (s ++ t) = skipLayout true t := by
  induction s with
  | nil => rfl
  | cons c s ih =>
    obtain ⟨first, others⟩ := List.forall_mem_cons.mp printed
    rw [List.cons_append, skipLayout_cons first.ne_lineEnd.1 first.ne_lineEnd.2, if_pos rfl,
      if_pos (isPrintable_iff.mpr first)]
    exact ih others

theorem skipLayout_skipBlanks (t : Text) :
    skipLayout false (skipBlanks t) = skipLayout false t := by
  induction t with
  | nil => rfl
  | cons c t ih =>
    by_cases blank : c = ' ' ∨ c = '\t'
    · rw [skipBlanks, List.dropWhile_cons_of_pos (by simpa using blank)]
      rcases blank with rfl | rfl <;> exact ih
    · rw [skipBlanks, List.dropWhile_cons_of_neg (by simpa using blank)]

theorem skipBlanks_ink (ink : c ∉ layoutChars) (t : Text) : skipBlanks (c :: t) = c :: t := by
  simp only [layoutChars, List.mem_cons, not_or] at ink
  simp [skipBlanks, ink]

theorem skipBlanks_append {b : Text} (blanks : ∀ c ∈ b, c = ' ' ∨ c = '\t')
    (ink : ∀ c ∈ u.head?, c ∉ layoutChars) : skipBlanks (b ++ u) = u := by
  refine (run_append (fun c listed => by simpa using blanks c listed) fun c first => ?_).2
  have ink := ink c first
  simp only [layoutChars, List.mem_cons, not_or] at ink
  simp [ink]

namespace Layout

theorem skipped (layout : Layout t) (u : Text) :
    skipLayout false (t ++ u) = skipLayout false u := by
  induction layout with
  | nil => rfl
  | blank space _ ih => rcases space with rfl | rfl <;> exact ih
  | lineEnd ended _ ih => rw [List.append_assoc, skipLayout_lineEnd ended, ih]
  | comment printed ended _ ih =>
    rw [List.cons_append, List.append_assoc, List.append_assoc]
    show skipLayout true _ = _
    rw [skipLayout_comment printed, skipLayout_lineEnd ended, ih]

/-- Layout is followed by what it is in front of, and starts with characters of its own. -/
theorem start (layout : Layout t) : ∀ c ∈ (t ++ u).head?, c ∈ layoutChars ∨ c ∈ u.head? := by
  intro c first
  cases layout with
  | nil => exact .inr first
  | blank space =>
    cases first
    rcases space with rfl | rfl <;> exact .inl (by decide)
  | lineEnd ended =>
    rcases mem_lineEnds.mp ended with rfl | rfl
    · cases first
      exact .inl (by decide)
    · cases first
      exact .inl (by decide)
  | comment =>
    cases first
    exact .inl (by decide)

/-- What comes behind the blanks of layout is no dot. -/
theorem undotted (layout : Layout t) (ink : c ∉ '.' :: layoutChars) :
    '.' ∉ (skipBlanks (t ++ c :: u)).head? := by
  induction layout with
  | nil =>
    rw [List.nil_append, skipBlanks_ink fun listed => ink (.tail _ listed)]
    rintro ⟨⟩
    exact ink List.mem_cons_self
  | blank space _ ih =>
    rw [List.cons_append, skipBlanks, List.dropWhile_cons_of_pos (by simpa using space)]
    exact ih
  | lineEnd ended =>
    rcases mem_lineEnds.mp ended with rfl | rfl <;> simp [skipBlanks]
  | comment => simp [skipBlanks]

end Layout

theorem readKey_cons (basic : c ≠ '"') (literal : c ≠ '\'') (t : Text) :
    readKey (c :: t) = if isBareKeyChar c = true then
      some ((c :: t).takeWhile isBareKeyChar, (c :: t).dropWhile isBareKeyChar) else none := by
  rw [readKey.eq_3]
  · cases special : isBareKeyChar c with
    | true => simp [special]
    | false => simp [special]
  · rintro t' equal
    cases equal
    exact basic rfl
  · rintro t' equal
    cases equal
    exact literal rfl

theorem isBareKeyChar_iff :
    isBareKeyChar c = true ↔ c.isAlphanum = true ∨ c = '_' ∨ c = '-' := by
  simp [isBareKeyChar, or_assoc]

namespace KeyText

theorem start (written : KeyText key t) :
    ∃ c t', t = c :: t' ∧ (c = '"' ∨ c = '\'' ∨ isBareKeyChar c = true) := by
  cases written with
  | bare filled bare =>
    obtain ⟨c, t', rfl⟩ := List.exists_cons_of_ne_nil filled
    exact ⟨c, t', rfl, .inr (.inr (isBareKeyChar_iff.mpr (bare c List.mem_cons_self)))⟩
  | quoted quoted =>
    obtain ⟨_, _, rfl⟩ := quoted
    exact ⟨_, _, rfl, .inl rfl⟩
  | literal literal =>
    obtain ⟨_, rfl⟩ := literal
    exact ⟨_, _, rfl, .inr (.inl rfl)⟩

/-- A key starts with none of the characters that structure a document. -/
theorem ink (written : KeyText key t) :
    ∃ c t', t = c :: t' ∧ c ∉ ['[', ']', '\x7d', '\uFEFF'] ++ layoutChars := by
  obtain ⟨c, t', rfl, start⟩ := written.start
  refine ⟨c, t', rfl, ?_⟩
  rcases start with rfl | rfl | bare
  · decide
  · decide
  · intro special
    have all : ∀ c ∈ ['[', ']', '\x7d', '\uFEFF'] ++ layoutChars, isBareKeyChar c = false := by
      decide
    rw [all c special] at bare
    cases bare

theorem readKey (written : KeyText key t) (ended : ∀ c ∈ u.head?, isBareKeyChar c = false) :
    readKey (t ++ u) = some (key, u) := by
  cases written with
  | bare filled bare =>
    have bare : ∀ c ∈ key, isBareKeyChar c = true :=
      fun c listed => isBareKeyChar_iff.mpr (bare c listed)
    have run := run_append bare ended
    obtain ⟨c, t', rfl⟩ := List.exists_cons_of_ne_nil filled
    have first := bare c List.mem_cons_self
    rw [List.cons_append, readKey_cons, if_pos first, ← List.cons_append, run.1, run.2]
    · rintro rfl
      cases first
    · rintro rfl
      cases first
  | quoted quoted =>
    obtain ⟨inside, basic, rfl⟩ := quoted
    rw [List.cons_append, List.append_assoc]
    exact readBasic_basicText basic u
  | literal literal =>
    obtain ⟨printed, rfl⟩ := literal
    rw [List.cons_append, List.append_assoc]
    exact readLiteral_printed printed u

end KeyText

theorem PathText.start (written : PathText path key t) :
    ∃ c t', t = c :: t' ∧ c ∉ ['[', ']', '\x7d', '\uFEFF'] ++ layoutChars := by
  cases written with
  | last written => exact written.ink
  | dotted written =>
    obtain ⟨c, t', rfl, ink⟩ := written.ink
    exact ⟨c, _, rfl, ink⟩

theorem readKeys_last {count : Nat} {rest : Text} (read : readKey t = some (key, rest))
    (undotted : '.' ∉ (skipBlanks rest).head?) :
    readKeys (count + 1) t = some ([], key, skipBlanks rest) := by
  rw [readKeys, read, Option.bind_eq_bind, Option.bind_some]
  dsimp only
  split
  · rename_i dot
    rw [dot] at undotted
    exact absurd rfl undotted
  · rfl

/-- A dotted key is read as its parts, with the blanks behind it. -/
theorem readKeys_pathText {count : Nat} (written : PathText path key t)
    (short : path.length < count) (ended : ∀ c ∈ u.head?, isBareKeyChar c = false)
    (undotted : '.' ∉ (skipBlanks u).head?) :
    readKeys count (t ++ u) = some (path, key, skipBlanks u) := by
  obtain ⟨count, rfl⟩ := Nat.exists_eq_add_one_of_ne_zero (Nat.ne_zero_of_lt short)
  induction written generalizing count with
  | last written => exact readKeys_last (written.readKey ended) undotted
  | @dotted path first key t b b' v written blanks further ih =>
    obtain ⟨blanks, blanks'⟩ := List.forall_mem_append.mp blanks
    rw [List.length_cons] at short
    obtain ⟨count, rfl⟩ := Nat.exists_eq_add_one_of_ne_zero (show count ≠ 0 by omega)
    obtain ⟨c, v', start, ink⟩ := further.start
    have whole : t ++ (b ++ '.' :: (b' ++ v)) ++ u = t ++ (b ++ '.' :: (b' ++ (v ++ u))) := by simp
    have bare : ∀ c ∈ (b ++ '.' :: (b' ++ (v ++ u))).head?, isBareKeyChar c = false := by
      intro c first
      cases b with
      | nil =>
        cases first
        decide
      | cons d b =>
        cases first
        rcases blanks _ List.mem_cons_self with rfl | rfl <;> decide
    have dot : skipBlanks (b ++ '.' :: (b' ++ (v ++ u))) = '.' :: (b' ++ (v ++ u)) :=
      skipBlanks_append blanks (fun c first => Option.some.inj first ▸ by decide)
    have next : skipBlanks (b' ++ (v ++ u)) = v ++ u := by
      refine skipBlanks_append blanks' fun d first => ?_
      rw [start, List.cons_append] at first
      cases first
      exact fun listed => ink (List.mem_append_right _ listed)
    rw [whole, readKeys, written.readKey bare, Option.bind_eq_bind, Option.bind_some]
    dsimp only
    rw [dot]
    show (readKeys (count + 1) (skipBlanks (b' ++ (v ++ u)))).bind _ = _
    rw [next, ih count (Nat.lt_of_succ_lt_succ short)]
    rfl

end MethodLines.Toml
