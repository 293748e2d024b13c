import MethodLines.Proofs.Toml.Digits

/-! The texts of TOML numbers. An integer has a base and a value; of a number that is no integer it
only counts whether it is small enough for floating point. -/
namespace MethodLines.Toml

variable {base : Nat} {c : Char} {ds : List Nat} {n factor : Int} {sign t u : Text}

/-- A sign, or none, and what it multiplies by. -/
inductive SignText : Int → Text → Prop where
  | none : SignText 1 []
  | plus : SignText 1 ['+']
  | minus : SignText (-1) ['-']

/-- Digits in decimal. A zero in front is the only one. -/
structure WholeText (ds : List Nat) (t : Text) : Prop where
  grouped : Grouped 10 ds t
  head : ds.head? = some 0 → ds = [0]

/-- The texts of an integer. Only decimal ones have signs. -/
inductive IntegerText : Int → Text → Prop where
  | decimal {factor : Int} {ds : List Nat} {sign t : Text} : SignText factor sign →
      WholeText ds t → IntegerText (factor * valueOf 10 ds) (sign ++ t)
  | based {base : Nat} {letter : Char} {ds : List Nat} {t : Text} :
      (base, letter) ∈ [(16, 'x'), (8, 'o'), (2, 'b')] → Grouped base ds t →
      IntegerText (valueOf base ds) ('0' :: letter :: t)

inductive FractionText : List Nat → Text → Prop where
  | none : FractionText [] []
  | some {ds : List Nat} {t : Text} : Grouped 10 ds t → FractionText ds ('.' :: t)

inductive ExponentText : Int → Text → Prop where
  | none : ExponentText 0 []
  | some {mark : Char} {factor : Int} {ds : List Nat} {sign t : Text} : mark = 'e' ∨ mark = 'E' →
      SignText factor sign → Grouped 10 ds t →
      ExponentText (factor * valueOf 10 ds) (mark :: (sign ++ t))

/-- Whether `n` times the power of ten is below what is rounded to infinity. -/
def IsFinite (n : Nat) (exponent : Int) : Prop :=
  n * 10 ^ exponent.toNat < (2 ^ 1024 - 2 ^ 970) * 10 ^ (-exponent).toNat

/-- The texts of a number with a fraction or an exponent, and of those that are none. -/
inductive FloatText : Text → Prop where
  | special {factor : Int} {sign name : Text} : SignText factor sign →
      name ∈ [("inf" : Text), "nan"] → FloatText (sign ++ name)
  | decimal {factor exponent : Int} {whole fraction : List Nat} {sign w f e : Text} :
      SignText factor sign → WholeText whole w → FractionText fraction f →
      ExponentText exponent e → f ++ e ≠ [] →
      IsFinite (valueOf 10 (whole ++ fraction)) (exponent - fraction.length) →
      FloatText (sign ++ (w ++ (f ++ e)))

theorem unsigned_digit (signed : SignText factor sign) {d : Nat} (digit : DigitChar 10 d c)
    (t : Text) : unsigned (sign ++ c :: t) = (decide (factor = -1), c :: t) := by
  have digit := digit.isDigit
  cases signed with
  | none =>
    rw [List.nil_append, unsigned.eq_3]
    · rfl
    all_goals
      rintro u equal
      cases equal
      cases digit
  | plus | minus => rfl

theorem isGrouped_sign (signed : SignText factor sign) {p : Char → Bool}
    (apart : ∀ u', u = '_' :: u' → False) : isGrouped p (sign ++ u) = isGrouped p u := by
  cases signed with
  | none => rfl
  | plus | minus => exact isGrouped_cons (by decide) apart

theorem SignText.apply (signed : SignText factor sign) (n : Nat) :
    (if decide (factor = -1) then -(n : Int) else n) = factor * n := by
  cases signed <;> simp

namespace WholeText

theorem wholeDigits? (whole : WholeText ds t) : wholeDigits? t = some (ungroup t) := by
  have digits := whole.grouped.ungroup (by decide)
  unfold Toml.wholeDigits?
  split
  · rename_i long
    obtain ⟨d, c, ds, t, rfl, equal, digit⟩ := whole.grouped.start
    cases equal
    have zero : d = 0 := (Option.some.inj (digit.hexDigit? (by decide))).symm
    have alone := whole.head (by rw [zero]; rfl)
    rw [alone, long] at digits
    cases digits with
    | cons _ others => cases others
  · exact whole.grouped.digits? (by decide)

/-- Behind the first digits there may be an underscore and more, but nothing else. -/
theorem behind_digits (whole : WholeText ds t) {rest : Text}
    (behind : t.dropWhile Char.isDigit = c :: rest) :
    c = '_' ∧ (rest.any fun c => c = '.' || c = 'e' || c = 'E') = false := by
  have known : ∀ d ∈ c :: rest, (d.isDigit || decide (d = '_')) = true := by
    intro d member
    rw [← behind] at member
    exact whole.grouped.isDigit_or d ((List.dropWhile_suffix _).subset member)
  have stopped : c.isDigit = false := by
    have := List.head?_dropWhile_not Char.isDigit t
    rw [behind] at this
    simpa using this
  refine ⟨by simpa [stopped] using known c List.mem_cons_self, ?_⟩
  rw [List.any_eq_false]
  intro d member mark
  have digit := known d (List.mem_cons_of_mem _ member)
  simp only [Bool.or_eq_true, decide_eq_true_eq] at mark
  rcases mark with (rfl | rfl) | rfl <;> revert digit <;> decide

end WholeText

theorem decimalInteger?_eq (signed : SignText factor sign) (whole : WholeText ds t) :
    decimalInteger? (sign ++ t) = some (.integer (some (factor * valueOf 10 ds))) := by
  obtain ⟨_, c, _, t', _, rfl, digit⟩ := whole.grouped.start
  have digits := whole.grouped.ungroup (by decide)
  have grouped : isGrouped (isDigitIn 16) (c :: t') = true :=
    whole.grouped.isGrouped (by decide) fun _ _ digit => digit.isDigitIn (by decide) (by decide)
  unfold decimalInteger?
  rw [unsigned_digit signed digit]
  dsimp only
  refine (if_pos ?_).trans ?_
  · cases behind : (c :: t').dropWhile Char.isDigit with
    | nil => rfl
    | cons d rest =>
      obtain ⟨underscore, plain⟩ := whole.behind_digits behind
      subst underscore
      simp [grouped, plain]
  · rw [whole.wholeDigits?, Option.map_some, valueIn_eq (by decide) digits,
      List.all_eq_true.mpr (all_numeral digits fun _ _ digit => digit.isDigit), if_pos rfl,
      signed.apply]

theorem integerIn?_eq (small : base ≤ 16) (written : Grouped base ds t) :
    integerIn? base t = some (.integer (some (valueOf base ds))) := by
  have digits := written.ungroup small
  have all : (ungroup t).all (isDigitIn base) = true :=
    List.all_eq_true.mpr (all_numeral digits fun _ _ digit => digit.isDigitIn small (Nat.le_refl _))
  have grouped := written.isGrouped small fun _ _ digit => digit.isDigitIn small (Nat.le_refl _)
  rw [integerIn?, all, grouped, written.digits? small, Option.map_some, valueIn_eq small digits]
  rfl

/-- A text is no integer in another base than ten without a letter behind its zero. -/
theorem integer?_of_second (plain : ∀ d u, t = '0' :: d :: u → d ∉ ['x', 'o', 'b']) :
    integer? t = decimalInteger? t := by
  apply integer?.eq_4
  all_goals
    intro u equal
    exact absurd (plain _ _ equal) (by decide)

theorem second_of_sign (signed : SignText factor sign) {d : Char}
    (second : sign ++ t = '0' :: d :: u) : t = '0' :: d :: u := by
  cases signed with
  | none => exact second
  | plus | minus => cases second

theorem integer?_eq (written : IntegerText n t) : integer? t = some (.integer (some n)) := by
  cases written with
  | @decimal factor ds sign t signed whole =>
    rw [← decimalInteger?_eq signed whole]
    refine integer?_of_second fun d u second marked => ?_
    have listed : d ∈ t := by simp [second_of_sign signed second]
    have known := whole.grouped.isDigit_or d listed
    simp only [List.mem_cons, List.not_mem_nil, or_false] at marked
    rcases marked with rfl | rfl | rfl <;> revert known <;> decide
  | @based base letter ds t known grouped =>
    simp only [List.mem_cons, List.not_mem_nil, or_false, Prod.mk.injEq] at known
    rcases known with ⟨rfl, rfl⟩ | ⟨rfl, rfl⟩ | ⟨rfl, rfl⟩
    · exact integerIn?_eq (by decide) grouped
    · exact integerIn?_eq (by decide) grouped
    · exact integerIn?_eq (by decide) grouped

theorem pow_le_of_length {n k : Nat} (positive : 0 < n) (long : k < (Text.decimal n).length) :
    10 ^ k ≤ n := by
  rcases Nat.eq_zero_or_pos k with rfl | filled
  · exact positive
  · by_contra small
    have := (Nat.length_toDigits_le_iff (b := 10) (by decide) filled).mpr (Nat.lt_of_not_le small)
    exact absurd long (Nat.not_lt_of_le this)

/-- What is too long is too large, so that it does not have to be computed. -/
theorem not_finite {n : Nat} {exponent : Int} (positive : 0 < n)
    (long : 310 < (Text.decimal n).length + exponent) : ¬ IsFinite n exponent := by
  have limit : 2 ^ 1024 - 2 ^ 970 ≤ 10 ^ 310 := by decide +kernel
  have filled : 0 < (Text.decimal n).length := List.length_pos_of_ne_nil Nat.toDigits_ne_nil
  rw [IsFinite, Nat.not_lt]
  generalize 2 ^ 1024 - 2 ^ 970 = bound at limit ⊢
  have large := pow_le_of_length (k := 310 + (-exponent).toNat - exponent.toNat) positive (by omega)
  calc bound * 10 ^ (-exponent).toNat
      ≤ 10 ^ 310 * 10 ^ (-exponent).toNat := Nat.mul_le_mul_right _ limit
    _ = 10 ^ (310 + (-exponent).toNat) := by rw [Nat.pow_add]
    _ ≤ 10 ^ (310 + (-exponent).toNat - exponent.toNat + exponent.toNat) :=
        Nat.pow_le_pow_right (by decide) (by omega)
    _ ≤ n * 10 ^ exponent.toNat := by
        rw [Nat.pow_add]
        exact Nat.mul_le_mul_right _ large

theorem representable_of_finite {exponent : Int} (written : Numeral 10 ds t)
    (finite : IsFinite (valueOf 10 ds) exponent) : representable t exponent = true := by
  unfold representable
  rw [valueIn_eq (by decide) written]
  generalize valueOf 10 ds = n at finite ⊢
  dsimp only
  split
  · rfl
  · rename_i large
    split
    · rename_i long
      exact absurd finite (not_finite (by omega) long)
    · unfold IsFinite at finite
      generalize 1024 = top, 970 = step at finite ⊢
      split
      · rename_i positive
        rw [show (-exponent).toNat = 0 by omega, show exponent.toNat = exponent.natAbs by omega,
          Nat.pow_zero, Nat.mul_one] at finite
        exact decide_eq_true finite
      · rename_i negative
        rw [show exponent.toNat = 0 by omega, show (-exponent).toNat = exponent.natAbs by omega,
          Nat.pow_zero, Nat.mul_one] at finite
        exact decide_eq_true finite

theorem isRunChar_digit {d : Nat} (digit : DigitChar 10 d c) : isRunChar c = true := by
  rw [isRunChar, digit.isDigit]
  rfl

theorem Grouped.run (written : Grouped 10 ds t) (ended : ∀ c ∈ u.head?, isRunChar c = false) :
    (t ++ u).takeWhile isRunChar = t ∧ (t ++ u).dropWhile isRunChar = u :=
  run_append (written.all (by decide) fun _ _ => isRunChar_digit) ended

theorem exponent?_eq (written : ExponentText n t) : exponent? t = some n := by
  cases written with
  | none => rfl
  | @some mark factor ds sign t marked signed grouped =>
    obtain ⟨_, c, _, t', _, rfl, digit⟩ := grouped.start
    have all := List.all_eq_true.mpr
      (grouped.all (p := isRunChar) (by decide) fun _ _ => isRunChar_digit)
    rcases marked with rfl | rfl
    all_goals
      rw [exponent?, unsigned_digit signed digit]
      dsimp only
      rw [all, if_pos rfl, grouped.digits? (by decide), Option.map_some,
        valueIn_eq (by decide) (grouped.ungroup (by decide)), signed.apply]

theorem head_exponentText (written : ExponentText n t) :
    ∀ c ∈ t.head?, c = 'e' ∨ c = 'E' := by
  cases written with
  | none => simp
  | some marked => simpa using marked

theorem head_fractionText {f e : Text} {fraction : List Nat}
    (fractionText : FractionText fraction f) (exponentText : ExponentText n e) :
    ∀ c ∈ (f ++ e).head?, c = '.' ∨ c = 'e' ∨ c = 'E' := by
  cases fractionText with
  | none => exact fun c first => .inr (head_exponentText exponentText c first)
  | some => simp

theorem isGrouped_exponentText (written : ExponentText n t) : isGrouped Char.isDigit t = true := by
  cases written with
  | none => rfl
  | @some mark factor ds sign t marked signed grouped =>
    obtain ⟨_, c, _, t', _, rfl, digit⟩ := grouped.start
    have first := digit.ne_underscore (by decide)
    have digits := grouped.isGrouped (by decide) fun _ _ digit => digit.isDigit
    rw [isGrouped_cons, isGrouped_sign signed]
    · exact digits
    · simp [first]
    · rcases marked with rfl | rfl <;> decide
    · cases signed <;> simp [first]

theorem isGrouped_fractionText {f e : Text} {fraction : List Nat}
    (fractionText : FractionText fraction f) (exponentText : ExponentText n e) :
    isGrouped Char.isDigit (f ++ e) = true := by
  have exponent := isGrouped_exponentText exponentText
  cases fractionText with
  | none => exact exponent
  | @some ds t grouped =>
    obtain ⟨_, c, _, t', _, rfl, digit⟩ := grouped.start
    have apart : ∀ u', e = '_' :: u' → False := by
      rintro u' rfl
      simpa using head_exponentText exponentText '_'
    rw [List.cons_append, isGrouped_cons (by decide),
      grouped.isGrouped_append (by decide) (fun _ _ digit => digit.isDigit) apart]
    · exact exponent
    · simp [digit.ne_underscore (by decide)]

theorem float?_eq (written : FloatText t) : float? t = some (.float true) := by
  cases written with
  | special signed named =>
    simp only [List.mem_cons, List.not_mem_nil, or_false] at named
    rcases named with rfl | rfl <;> cases signed <;> rfl
  | @decimal factor exponent whole fraction sign w f e signed wholeText fractionText exponentText
      behind finite =>
    obtain ⟨_, c, _, w', _, rfl, digit⟩ := wholeText.grouped.start
    have ended : ∀ c ∈ (f ++ e).head?, isRunChar c = false := by
      intro c first
      rcases head_fractionText fractionText exponentText c first with rfl | rfl | rfl <;> decide
    have apart : ∀ u', f ++ e = '_' :: u' → False := by
      intro u' equal
      simpa [isRunChar, equal] using ended '_'
    have letter : c ≠ 'i' ∧ c ≠ 'n' := ⟨digit.ne (by decide), digit.ne (by decide)⟩
    have run := wholeText.grouped.run ended
    have digits := wholeText.grouped.ungroup (by decide)
    unfold float?
    rw [List.cons_append, unsigned_digit signed digit, ← List.cons_append]
    dsimp only
    rw [if_neg (by simp [letter]), if_pos, run.1, run.2, wholeText.wholeDigits?]
    · cases fractionText with
      | none =>
        cases exponentText with
        | none => exact absurd rfl behind
        | @some mark factor' ds sign' t marked signed' grouped =>
          have read := exponent?_eq (.some marked signed' grouped)
          have finite := representable_of_finite digits (by simpa using finite)
          have other : mark ≠ '.' := by rcases marked with rfl | rfl <;> decide
          simp [read, finite, other]
      | @some ds t grouped =>
        have ended : ∀ c ∈ e.head?, isRunChar c = false := by
          intro c first
          rcases head_exponentText exponentText c first with rfl | rfl <;> decide
        have run := grouped.run ended
        have behind := grouped.ungroup (by decide)
        have finite := representable_of_finite (List.rel_append digits behind) finite
        simp [run, grouped.digits? (by decide), exponent?_eq exponentText,
          length_numeral behind, finite]
    · rw [wholeText.grouped.isGrouped_append (by decide) (fun _ _ digit => digit.isDigit) apart]
      exact isGrouped_fractionText fractionText exponentText

section

variable {p : Char → Bool}

theorem all_sign (marks : ∀ c ∈ ("+-_.eE" : Text), p c = true) (signed : SignText factor sign) :
    ∀ c ∈ sign, p c = true := by
  intro c listed
  refine marks c ?_
  cases signed with
  | none => cases listed
  | plus | minus =>
    rw [List.mem_singleton] at listed
    subst listed
    decide

theorem all_fractionText (marks : ∀ c ∈ ("+-_.eE" : Text), p c = true)
    (digits : ∀ d c, DigitChar 10 d c → p c = true) (written : FractionText ds t) :
    ∀ c ∈ t, p c = true := by
  cases written with
  | none => simp
  | some grouped =>
    exact List.forall_mem_cons.mpr
      ⟨marks _ (by decide), grouped.all (marks _ (by decide)) digits⟩

theorem all_exponentText (marks : ∀ c ∈ ("+-_.eE" : Text), p c = true)
    (digits : ∀ d c, DigitChar 10 d c → p c = true) (written : ExponentText n t) :
    ∀ c ∈ t, p c = true := by
  cases written with
  | none => simp
  | some marked signed grouped =>
    refine List.forall_mem_cons.mpr ⟨?_, List.forall_mem_append.mpr
      ⟨all_sign marks signed, grouped.all (marks _ (by decide)) digits⟩⟩
    rcases marked with rfl | rfl
    · exact marks _ (by decide)
    · exact marks _ (by decide)

end

theorem integer?_floatText (written : FloatText t) : integer? t = none := by
  cases written with
  | special signed named =>
    simp only [List.mem_cons, List.not_mem_nil, or_false] at named
    rcases named with rfl | rfl <;> cases signed <;> rfl
  | @decimal factor exponent whole fraction sign w f e signed wholeText fractionText exponentText
      behind finite =>
    have mark := head_fractionText fractionText exponentText
    rw [integer?_of_second]
    · obtain ⟨_, c, _, w', _, rfl, digit⟩ := wholeText.grouped.start
      have ended : ∀ c ∈ (f ++ e).head?, c.isDigit = false := by
        intro c first
        rcases mark c first with rfl | rfl | rfl <;> decide
      unfold decimalInteger?
      rw [List.cons_append, unsigned_digit signed digit, ← List.cons_append]
      dsimp only
      rw [dropWhile_append ended]
      refine if_neg ?_
      obtain ⟨m, rest, whole⟩ := List.exists_cons_of_ne_nil behind
      rw [whole] at mark ⊢
      have mark := mark m rfl
      cases inside : (c :: w').dropWhile Char.isDigit with
      | nil => rcases mark with rfl | rfl | rfl <;> simp
      | cons d between =>
        obtain ⟨rfl, _⟩ := wholeText.behind_digits inside
        rcases mark with rfl | rfl | rfl <;> simp
    · intro d u second marked
      have marks : ∀ c ∈ ("+-_.eE" : Text), decide (c ∉ ['x', 'o', 'b']) = true := by decide
      have digits : ∀ d c, DigitChar 10 d c → decide (c ∉ ['x', 'o', 'b']) = true := by
        intro d c digit
        simp only [List.mem_cons, List.not_mem_nil, or_false, decide_eq_true_eq, not_or]
        exact ⟨digit.ne (by decide), digit.ne (by decide), digit.ne (by decide)⟩
      have listed : d ∈ w ++ (f ++ e) := by simp [second_of_sign signed second]
      have other := List.forall_mem_append.mpr ⟨wholeText.grouped.all (marks _ (by decide)) digits,
        List.forall_mem_append.mpr ⟨all_fractionText marks digits fractionText,
          all_exponentText marks digits exponentText⟩⟩ d listed
      exact of_decide_eq_true other marked

theorem IntegerText.isPlainChar (written : IntegerText n t) :
    ∀ c ∈ t, isPlainChar c = true := by
  cases written with
  | decimal signed whole =>
    exact List.forall_mem_append.mpr ⟨all_sign (by decide) signed,
      whole.grouped.all (by decide) fun _ _ digit => digit.isPlainChar (by decide)⟩
  | based known grouped =>
    simp only [List.mem_cons, List.not_mem_nil, or_false, Prod.mk.injEq] at known
    rcases known with ⟨rfl, rfl⟩ | ⟨rfl, rfl⟩ | ⟨rfl, rfl⟩
    all_goals
      exact List.forall_mem_cons.mpr ⟨by decide, List.forall_mem_cons.mpr ⟨by decide,
        grouped.all (by decide) fun _ _ digit => digit.isPlainChar (by decide)⟩⟩

theorem FloatText.isPlainChar (written : FloatText t) : ∀ c ∈ t, isPlainChar c = true := by
  have digits : ∀ d c, DigitChar 10 d c → Toml.isPlainChar c = true :=
    fun _ _ digit => digit.isPlainChar (by decide)
  cases written with
  | special signed named =>
    refine List.forall_mem_append.mpr ⟨all_sign (by decide) signed, ?_⟩
    simp only [List.mem_cons, List.not_mem_nil, or_false] at named
    rcases named with rfl | rfl <;> decide
  | decimal signed wholeText fractionText exponentText =>
    exact List.forall_mem_append.mpr ⟨all_sign (by decide) signed, List.forall_mem_append.mpr
      ⟨wholeText.grouped.all (by decide) digits, List.forall_mem_append.mpr
        ⟨all_fractionText (by decide) digits fractionText,
          all_exponentText (by decide) digits exponentText⟩⟩⟩

end MethodLines.Toml
