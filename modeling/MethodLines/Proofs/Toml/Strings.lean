import MethodLines.Proofs.Toml.Digits
import MethodLines.Toml.Quoted

/-! The texts of TOML strings: basic ones with escapes and literal ones without, each on one line
or on several. A string is read as what it stands for, whatever follows it but another quote. -/
namespace MethodLines.Toml

variable {c : Char} {ds : List Nat} {s t u rest : Text}

def Printed (c : Char) : Prop := c = '\t' ∨ (' ' ≤ c ∧ c ≠ '\x7f')

instance (c : Char) : Decidable (Printed c) := inferInstanceAs (Decidable (_ ∨ _))

def lineEnds : List Text := [['\n'], ['\r', '\n']]

def escapes : List (Char × Char) :=
  [('b', '\x08'), ('t', '\t'), ('n', '\n'), ('f', '\x0c'), ('r', '\r'), ('e', '\x1b'),
    ('"', '"'), ('\\', '\\')]

/-- How a character can stand in a basic string. -/
inductive CharText : Char → Text → Prop where
  | plain {c : Char} : Printed c → c ≠ '"' → c ≠ '\\' → CharText c [c]
  | short (letter : Char) {c : Char} : (letter, c) ∈ escapes → CharText c ['\\', letter]
  | code (letter : Char) {c : Char} {ds : List Nat} {digits : Text} : Numeral 16 ds digits →
      (letter, digits.length) ∈ [('x', 2), ('u', 4), ('U', 8)] →
      valueOf 16 ds = c.toNat → CharText c ('\\' :: letter :: digits)

inductive BasicText : Text → Text → Prop where
  | nil : BasicText [] []
  | cons {c : Char} {s t u : Text} : CharText c t → BasicText s u → BasicText (c :: s) (t ++ u)

def QuotedText (s t : Text) : Prop := ∃ inside, BasicText s inside ∧ t = '"' :: (inside ++ ['"'])

def LiteralText (s t : Text) : Prop :=
  (∀ c ∈ s, Printed c ∧ c ≠ '\'') ∧ t = '\'' :: (s ++ ['\''])

/-- What stands behind the opening quotes of a basic string of several lines, the closing ones
included. A backslash at the end of a line takes along all blanks and line ends behind it. -/
inductive BasicLines : Text → Text → Prop where
  | close {s : Text} : s ∈ [[], ['"'], ['"', '"']] → BasicLines s (s ++ ['"', '"', '"'])
  | char {c : Char} {s t u : Text} : CharText c t → BasicLines s u → BasicLines (c :: s) (t ++ u)
  | quotes {q s u : Text} : q ∈ [['"'], ['"', '"']] → '"' ∉ u.head? → BasicLines s u →
      BasicLines (q ++ s) (q ++ u)
  | lineEnd {e s u : Text} : e ∈ lineEnds → BasicLines s u → BasicLines (e ++ s) (e ++ u)
  | continued {blanks e s u : Text} {space : List Text} : (∀ c ∈ blanks, c = ' ' ∨ c = '\t') →
      e ∈ lineEnds → (∀ b ∈ space, b ∈ [' '] :: ['\t'] :: lineEnds) →
      (∀ c ∈ u.head?, c ∉ [' ', '\t', '\n', '\r']) → BasicLines s u →
      BasicLines s ('\\' :: (blanks ++ (e ++ (space.flatten ++ u))))

/-- The same of a literal string, which has no escapes. -/
inductive LiteralLines : Text → Text → Prop where
  | close {s : Text} : s ∈ [[], ['\''], ['\'', '\'']] → LiteralLines s (s ++ ['\'', '\'', '\''])
  | char {c : Char} {s u : Text} : Printed c → c ≠ '\'' → LiteralLines s u →
      LiteralLines (c :: s) (c :: u)
  | quotes {q s u : Text} : q ∈ [['\''], ['\'', '\'']] → '\'' ∉ u.head? → LiteralLines s u →
      LiteralLines (q ++ s) (q ++ u)
  | lineEnd {e s u : Text} : e ∈ lineEnds → LiteralLines s u → LiteralLines (e ++ s) (e ++ u)

/-- A string of any kind. A line end right behind three opening quotes does not count. -/
inductive StringText : Text → Text → Prop where
  | quoted {s t : Text} : QuotedText s t → StringText s t
  | literal {s t : Text} : LiteralText s t → StringText s t
  | lines {lead s t : Text} : lead ∈ [] :: lineEnds →
      (lead = [] → ∀ c ∈ t.head?, c ∉ ['\n', '\r']) → BasicLines s t →
      StringText s ('"' :: '"' :: '"' :: (lead ++ t))
  | literalLines {lead s t : Text} : lead ∈ [] :: lineEnds →
      (lead = [] → ∀ c ∈ t.head?, c ∉ ['\n', '\r']) → LiteralLines s t →
      StringText s ('\'' :: '\'' :: '\'' :: (lead ++ t))

theorem mem_lineEnds : t ∈ lineEnds ↔ t = ['\n'] ∨ t = ['\r', '\n'] := by
  simp [lineEnds]

theorem Printed.ne_lineEnd (printed : Printed c) : c ≠ '\n' ∧ c ≠ '\r' := by
  constructor
  · rintro rfl
    exact absurd printed (by decide)
  · rintro rfl
    exact absurd printed (by decide)

theorem isPrintable_iff : isPrintable c = true ↔ Printed c := by
  have space : ' ' ≤ c ↔ 0x20 ≤ c.toNat := Iff.rfl
  have delete : c = '\x7f' ↔ c.toNat = 0x7f :=
    ⟨fun same => same ▸ rfl, fun same => Char.toNat_inj.mp same⟩
  simp [isPrintable, Printed, space, delete]

theorem foldlM_hexDigit? (written : Numeral 16 ds t) (n : Nat) :
    t.foldlM (fun n c => (Text.hexDigit? c).map (n * 16 + ·)) n =
      some (ds.foldl (fun n d => n * 16 + d) n) := by
  induction written generalizing n with
  | nil => rfl
  | @cons d _ _ _ digit _ ih =>
    rw [List.foldlM_cons, digit.hexDigit? (by decide)]
    exact ih (n * 16 + d)

theorem coded?_eq (written : Numeral 16 ds t) (value : valueOf 16 ds = c.toNat) :
    coded? t = some c := by
  rw [coded?, foldlM_hexDigit? written, ← valueOf_eq_foldl, value]
  show Text.ofCode? c.toNat = some c
  rw [Text.ofCode?, if_pos (show c.toNat.isValidChar from c.valid), Char.ofNat_toNat]

theorem escape?_eq {letter : Char} (known : (letter, c) ∈ escapes) :
    escape? letter = some c ∧ letter ∉ ['x', 'u', 'U', ' ', '\t', '\n', '\r'] := by
  simp only [escapes, List.mem_cons, List.not_mem_nil, or_false, Prod.mk.injEq] at known
  rcases known with h | h | h | h | h | h | h | h
  all_goals
    obtain ⟨rfl, rfl⟩ := h
    exact ⟨rfl, by decide⟩

theorem readBasic_charText (written : CharText c t) (u : Text) :
    readBasic (t ++ u) = push (some c) (readBasic u) := by
  cases written with
  | plain printed quote slash =>
    have printed := isPrintable_iff.mpr printed
    rw [List.singleton_append, readBasic.eq_7, if_pos (by simp [printed, slash])]
    all_goals simp_all
  | short letter known =>
    obtain ⟨escaped, other⟩ := escape?_eq known
    simp only [List.mem_cons, List.not_mem_nil, or_false, not_or] at other
    show readBasic ('\\' :: letter :: u) = _
    rw [readBasic.eq_6 _ _ (by simp [other]) (by simp [other]) (by simp [other]), escaped]
  | @code letter _ ds digits hex known value =>
    rw [← coded?_eq hex value]
    simp only [List.mem_cons, List.not_mem_nil, or_false, Prod.mk.injEq] at known
    rcases known with ⟨rfl, two⟩ | ⟨rfl, four⟩ | ⟨rfl, eight⟩
    · match digits, two with
      | [_, _], _ => rfl
    · match digits, four with
      | [_, _, _, _], _ => rfl
    · match digits, eight with
      | [_, _, _, _, _, _, _, _], _ => rfl

theorem readBasic_basicText (written : BasicText s t) (u : Text) :
    readBasic (t ++ '"' :: u) = some (s, u) := by
  induction written with
  | nil => rfl
  | cons char _ ih =>
    rw [List.append_assoc, readBasic_charText char, ih]
    rfl

theorem readLiteral_printed (printed : ∀ c ∈ s, Printed c ∧ c ≠ '\'') (u : Text) :
    readLiteral (s ++ '\'' :: u) = some (s, u) := by
  induction s with
  | nil => rfl
  | cons c s ih =>
    obtain ⟨⟨first, quote⟩, others⟩ := List.forall_mem_cons.mp printed
    rw [List.cons_append, readLiteral.eq_3 _ _ quote, if_pos (isPrintable_iff.mpr first), ih others]
    rfl

theorem start_of_charText (written : CharText c t) : ∃ d t', t = d :: t' ∧ d ≠ '"' ∧
    (d = '\\' ∨ Printed d ∧ d = c) := by
  cases written with
  | plain printed quote _ => exact ⟨c, [], rfl, quote, .inr ⟨printed, rfl⟩⟩
  | short | code => exact ⟨'\\', _, rfl, by decide, .inl rfl⟩

theorem readBasicLines_plain {x : LineState} (state : x ≠ .lineEnd)
    (blank : x = .continuation → c ≠ ' ' ∧ c ≠ '\t') (printed : Printed c) (slash : c ≠ '\\')
    (opened : ¬ ['"', '"', '"'] <+: c :: t) :
    readBasicLines x (c :: t) = push (some c) (readBasicLines .inside t) := by
  have lineEnd := printed.ne_lineEnd
  have printed := isPrintable_iff.mpr printed
  have quote : ∀ t', c = '"' → t = '"' :: '"' :: t' → False := by
    rintro t' rfl rfl
    exact opened (by simp)
  rw [readBasicLines.eq_22, if_pos (by simp [printed, slash])]
  · exact fun _ first three => quote _ first three
  · exact fun _ first three => quote _ first three
  · exact quote
  all_goals simp_all

theorem readBasicLines_charText {x : LineState} (state : x ≠ .lineEnd) (written : CharText c t)
    (ink : x = .continuation → ∀ d ∈ t.head?, d ∉ [' ', '\t', '\n', '\r']) (u : Text) :
    readBasicLines x (t ++ u) = push (some c) (readBasicLines .inside u) := by
  cases written with
  | plain printed quote slash =>
    refine readBasicLines_plain state (fun resumed => ?_) printed slash fun opened => ?_
    · have := ink resumed c rfl
      simp only [List.mem_cons, not_or] at this
      exact ⟨this.1, this.2.1⟩
    · exact quote (List.cons_prefix_cons.mp opened).1.symm
  | short letter known =>
    obtain ⟨escaped, other⟩ := escape?_eq known
    simp only [List.mem_cons, List.not_mem_nil, or_false, not_or] at other
    show readBasicLines _ ('\\' :: letter :: u) = _
    rw [readBasicLines.eq_19 _ _ _ (by simp [other]) (by simp [other]) (by simp [other])
      (by simp [other]) (by simp [other]) (by simp [other]) (by simp [other]) state, escaped]
  | @code letter _ ds digits hex known value =>
    rw [← coded?_eq hex value]
    simp only [List.mem_cons, List.not_mem_nil, or_false, Prod.mk.injEq] at known
    rcases known with ⟨rfl, two⟩ | ⟨rfl, four⟩ | ⟨rfl, eight⟩
    · match digits, two with
      | [_, _], _ => exact readBasicLines.eq_12 _ _ _ _ state
    · match digits, four with
      | [_, _, _, _], _ => exact readBasicLines.eq_13 _ _ _ _ _ _ state
    · match digits, eight with
      | [_, _, _, _, _, _, _, _], _ => exact readBasicLines.eq_14 _ _ _ _ _ _ _ _ _ _ state

theorem readBasicLines_space {space : List Text}
    (blank : ∀ b ∈ space, b ∈ [' '] :: ['\t'] :: lineEnds) (u : Text) :
    readBasicLines .continuation (space.flatten ++ u) = readBasicLines .continuation u := by
  induction space with
  | nil => rfl
  | cons b space ih =>
    obtain ⟨first, others⟩ := List.forall_mem_cons.mp blank
    rw [List.flatten_cons, List.append_assoc, ← ih others]
    simp only [lineEnds, List.mem_cons, List.not_mem_nil, or_false] at first
    rcases first with rfl | rfl | rfl | rfl <;> rfl

theorem readBasicLines_lineEnd {blanks e : Text} (blank : ∀ c ∈ blanks, c = ' ' ∨ c = '\t')
    (ended : e ∈ lineEnds) (u : Text) :
    readBasicLines .lineEnd (blanks ++ (e ++ u)) = readBasicLines .continuation u := by
  induction blanks with
  | nil =>
    rcases mem_lineEnds.mp ended with rfl | rfl <;> rfl
  | cons b blanks ih =>
    obtain ⟨first, others⟩ := List.forall_mem_cons.mp blank
    rw [List.cons_append, ← ih others]
    rcases first with rfl | rfl <;> rfl

/-- A backslash at the end of a line takes along the blanks and line ends behind it. -/
theorem readBasicLines_continued {x : LineState} (state : x ≠ .lineEnd) {blanks e : Text}
    {space : List Text} (blank : ∀ c ∈ blanks, c = ' ' ∨ c = '\t') (ended : e ∈ lineEnds)
    (spaced : ∀ b ∈ space, b ∈ [' '] :: ['\t'] :: lineEnds) (u : Text) :
    readBasicLines x ('\\' :: (blanks ++ (e ++ (space.flatten ++ u)))) =
      readBasicLines .continuation u := by
  rw [← readBasicLines_space spaced]
  cases blanks with
  | nil =>
    rcases mem_lineEnds.mp ended with rfl | rfl
    · exact readBasicLines.eq_17 _ _ state
    · exact readBasicLines.eq_18 _ _ state
  | cons b blanks =>
    obtain ⟨first, others⟩ := List.forall_mem_cons.mp blank
    rw [← readBasicLines_lineEnd others ended]
    rcases first with rfl | rfl
    · exact readBasicLines.eq_15 _ _ state
    · exact readBasicLines.eq_16 _ _ state

theorem BasicLines.filled (written : BasicLines s t) : t ≠ [] := by
  induction written with
  | close => simp
  | char char =>
    obtain ⟨d, t', rfl, _⟩ := start_of_charText char
    simp
  | quotes _ _ _ ih | lineEnd _ _ ih => simp [ih]
  | continued => simp

theorem readBasicLines_lines {x : LineState} (state : x ≠ .lineEnd) (written : BasicLines s t)
    (ink : x = .continuation → ∀ d ∈ t.head?, d ∉ [' ', '\t', '\n', '\r'])
    (apart : '"' ∉ rest.head?) : readBasicLines x (t ++ rest) = some (s, rest) := by
  have single : ∀ t', rest = '"' :: t' → False := by
    rintro t' rfl
    exact apart rfl
  induction written generalizing x with
  | close quotes =>
    simp only [List.mem_cons, List.not_mem_nil, or_false] at quotes
    rcases quotes with rfl | rfl | rfl
    · exact readBasicLines.eq_11 _ _ (fun _ => single _) single state
    · exact readBasicLines.eq_10 _ _ single state
    · exact readBasicLines.eq_9 _ _ state
  | char char _ ih =>
    obtain ⟨d, t', rfl, _⟩ := start_of_charText char
    rw [List.append_assoc, readBasicLines_charText state char ink, ih (by simp) (by simp)]
    rfl
  | @quotes q s u known next others ih =>
    obtain ⟨d, u, rfl⟩ := List.exists_cons_of_ne_nil others.filled
    have quote : d ≠ '"' := by
      rintro rfl
      exact next rfl
    have printed : Printed '"' := .inr ⟨by decide, by decide⟩
    have behind := ih (x := .inside) (by simp) (by simp)
    simp only [List.mem_cons, List.not_mem_nil, or_false] at known
    rcases known with rfl | rfl
    · show readBasicLines x ('"' :: (d :: u ++ rest)) = _
      rw [readBasicLines_plain state (by simp) printed (by decide) (by simp [Ne.symm quote]),
        behind]
      rfl
    · show readBasicLines x ('"' :: '"' :: (d :: u ++ rest)) = _
      rw [readBasicLines_plain state (by simp) printed (by decide) (by simp [Ne.symm quote]),
        readBasicLines_plain (by simp) (by simp) printed (by decide) (by simp [Ne.symm quote]),
        behind]
      rfl
  | @lineEnd e s u ended _ ih =>
    have behind := ih (x := .inside) (by simp) (by simp)
    have ended := mem_lineEnds.mp ended
    have start : x = .continuation → False := by
      intro resumed
      rcases ended with rfl | rfl
      · exact ink resumed '\n' rfl (by simp)
      · exact ink resumed '\r' rfl (by simp)
    rcases ended with rfl | rfl
    · show readBasicLines x ('\n' :: (u ++ rest)) = _
      rw [readBasicLines.eq_20 _ _ state start, behind]
      rfl
    · show readBasicLines x ('\r' :: '\n' :: (u ++ rest)) = _
      rw [readBasicLines.eq_21 _ _ state start, behind]
      rfl
  | continued blank ended spaced ink' _ ih =>
    rw [List.cons_append, List.append_assoc, List.append_assoc, List.append_assoc,
      readBasicLines_continued state blank ended spaced]
    exact ih (by simp) fun _ => ink'

theorem readLiteralLines_plain (printed : Printed c) (opened : ¬ ['\'', '\'', '\''] <+: c :: t) :
    readLiteralLines (c :: t) = push (some c) (readLiteralLines t) := by
  have lineEnd := printed.ne_lineEnd
  have single : ∀ t', c = '\'' → t = '\'' :: '\'' :: t' → False := by
    rintro t' rfl rfl
    exact opened (by simp)
  rw [readLiteralLines.eq_7, if_pos (isPrintable_iff.mpr printed)]
  · exact fun _ quote three => single _ quote three
  · exact fun _ quote three => single _ quote three
  · exact single
  · exact lineEnd.1
  · exact fun _ other _ => lineEnd.2 other

theorem LiteralLines.filled (written : LiteralLines s t) : t ≠ [] := by
  induction written with
  | close | char => simp
  | quotes _ _ _ ih | lineEnd _ _ ih => simp [ih]

theorem readLiteralLines_lines (written : LiteralLines s t) (apart : '\'' ∉ rest.head?) :
    readLiteralLines (t ++ rest) = some (s, rest) := by
  have single : ∀ t', rest = '\'' :: t' → False := by
    rintro t' rfl
    exact apart rfl
  induction written with
  | close quotes =>
    simp only [List.mem_cons, List.not_mem_nil, or_false] at quotes
    rcases quotes with rfl | rfl | rfl
    · exact readLiteralLines.eq_4 _ (fun _ => single _) single
    · exact readLiteralLines.eq_3 _ single
    · exact readLiteralLines.eq_2 _
  | @char c s u printed quote _ ih =>
    rw [List.cons_append, readLiteralLines_plain printed fun opened =>
      quote (List.cons_prefix_cons.mp opened).1.symm, ih]
    rfl
  | @quotes q s u known next others ih =>
    obtain ⟨d, u, rfl⟩ := List.exists_cons_of_ne_nil others.filled
    have quote : d ≠ '\'' := by
      rintro rfl
      exact next rfl
    have printed : Printed '\'' := .inr ⟨by decide, by decide⟩
    simp only [List.mem_cons, List.not_mem_nil, or_false] at known
    rcases known with rfl | rfl
    · show readLiteralLines ('\'' :: (d :: u ++ rest)) = _
      rw [readLiteralLines_plain printed (by simp [Ne.symm quote]), ih]
      rfl
    · show readLiteralLines ('\'' :: '\'' :: (d :: u ++ rest)) = _
      rw [readLiteralLines_plain printed (by simp [Ne.symm quote]),
        readLiteralLines_plain printed (by simp [Ne.symm quote]), ih]
      rfl
  | @lineEnd e s u ended _ ih =>
    rcases mem_lineEnds.mp ended with rfl | rfl
    · show readLiteralLines ('\n' :: (u ++ rest)) = _
      rw [readLiteralLines, ih]
      rfl
    · show readLiteralLines ('\r' :: '\n' :: (u ++ rest)) = _
      rw [readLiteralLines, ih]
      rfl

theorem dropLineEnd_append {lead : Text} (known : lead ∈ [] :: lineEnds)
    (inside : lead = [] → ∀ c ∈ t.head?, c ∉ ['\n', '\r']) (filled : t ≠ []) :
    dropLineEnd (lead ++ (t ++ rest)) = t ++ rest := by
  simp only [lineEnds, List.mem_cons, List.not_mem_nil, or_false] at known
  rcases known with rfl | rfl | rfl
  · obtain ⟨c, t, rfl⟩ := List.exists_cons_of_ne_nil filled
    have other := inside rfl c rfl
    refine dropLineEnd.eq_3 _ ?_ ?_
    · rintro t' equal
      rw [List.nil_append, List.cons_append, List.cons.injEq] at equal
      exact other (by simp [equal.1])
    · rintro t' equal
      rw [List.nil_append, List.cons_append, List.cons.injEq] at equal
      exact other (by simp [equal.1])
  · rfl
  · rfl

/-- A string is read as what it stands for. -/
theorem readString_stringText (written : StringText s t)
    (apart : ∀ c ∈ rest.head?, c ≠ '"' ∧ c ≠ '\'') : readString (t ++ rest) = some (s, rest) := by
  have basic : '"' ∉ rest.head? := fun first => (apart _ first).1 rfl
  have literal : '\'' ∉ rest.head? := fun first => (apart _ first).2 rfl
  cases written with
  | quoted written =>
    obtain ⟨inside, written, rfl⟩ := written
    rw [List.cons_append, List.append_assoc, List.singleton_append, readString.eq_2]
    · exact readBasic_basicText written rest
    · intro t' equal
      cases written with
      | nil =>
        cases equal
        exact basic rfl
      | cons char _ =>
        obtain ⟨d, t, rfl, quote, _⟩ := start_of_charText char
        rw [List.cons_append, List.cons_append, List.cons.injEq] at equal
        exact quote equal.1
  | literal written =>
    obtain ⟨printed, rfl⟩ := written
    rw [List.cons_append, List.append_assoc, List.singleton_append, readString.eq_4]
    · exact readLiteral_printed printed rest
    · intro t' equal
      cases s with
      | nil =>
        cases equal
        exact literal rfl
      | cons c s =>
        rw [List.cons_append, List.cons.injEq] at equal
        exact (printed _ List.mem_cons_self).2 equal.1
  | lines lead inside written =>
    show readString ('"' :: '"' :: '"' :: (_ ++ _ ++ rest)) = _
    rw [readString, List.append_assoc, dropLineEnd_append lead inside written.filled]
    exact readBasicLines_lines (by simp) written (by simp) basic
  | literalLines lead inside written =>
    show readString ('\'' :: '\'' :: '\'' :: (_ ++ _ ++ rest)) = _
    rw [readString, List.append_assoc, dropLineEnd_append lead inside written.filled]
    exact readLiteralLines_lines written literal

theorem StringText.start (written : StringText s t) :
    ∃ c t', t = c :: t' ∧ (c = '"' ∨ c = '\'') := by
  cases written with
  | quoted written =>
    obtain ⟨inside, _, rfl⟩ := written
    exact ⟨_, _, rfl, .inl rfl⟩
  | literal written =>
    obtain ⟨_, rfl⟩ := written
    exact ⟨_, _, rfl, .inr rfl⟩
  | lines => exact ⟨_, _, rfl, .inl rfl⟩
  | literalLines => exact ⟨_, _, rfl, .inr rfl⟩

theorem charText_coded (small : c.toNat < 256) : ∃ t, CharText c t := by
  have digits : Numeral 16 [c.toNat / 16, c.toNat % 16]
      [(c.toNat / 16).digitChar, (c.toNat % 16).digitChar] :=
    .cons (.lower (by omega)) (.cons (.lower (by omega)) .nil)
  refine ⟨_, .code 'x' digits (by simp) ?_⟩
  rw [valueOf_eq_foldl]
  simp only [List.foldl_cons, List.foldl_nil]
  omega

/-- Every character can stand in a basic string. -/
theorem exists_charText (c : Char) : ∃ t, CharText c t := by
  by_cases quote : c = '"'
  · exact ⟨_, .short '"' (by simp [escapes, quote])⟩
  by_cases slash : c = '\\'
  · exact ⟨_, .short '\\' (by simp [escapes, slash])⟩
  by_cases printed : Printed c
  · exact ⟨_, .plain printed quote slash⟩
  · refine charText_coded ?_
    have space : ' ' ≤ c ↔ 0x20 ≤ c.toNat := Iff.rfl
    simp only [Printed, space, not_or, not_and, not_not] at printed
    by_contra large
    have delete := printed.2 (by omega)
    subst delete
    exact large (by decide)

theorem exists_quotedText (s : Text) : ∃ t, QuotedText s t := by
  have inside : ∃ t, BasicText s t := by
    induction s with
    | nil => exact ⟨[], .nil⟩
    | cons c s ih =>
      obtain ⟨t, first⟩ := exists_charText c
      obtain ⟨u, others⟩ := ih
      exact ⟨t ++ u, .cons first others⟩
  obtain ⟨t, basic⟩ := inside
  exact ⟨_, t, basic, rfl⟩

theorem quotedText_plain (plain : (s.all fun c => isPrintable c && c ≠ '"' && c ≠ '\\') = true) :
    QuotedText s ('"' :: (s ++ ['"'])) := by
  refine ⟨s, ?_, rfl⟩
  induction s with
  | nil => exact .nil
  | cons c s ih =>
    simp only [List.all_cons, Bool.and_eq_true, decide_eq_true_eq] at plain
    obtain ⟨⟨⟨printed, quote⟩, slash⟩, others⟩ := plain
    exact .cons (.plain (isPrintable_iff.mp printed) quote slash) (ih others)

end MethodLines.Toml
