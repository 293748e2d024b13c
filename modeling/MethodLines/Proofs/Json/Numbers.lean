import MethodLines.Json.Reading

/-! The texts of a number. Each is read digit by digit, if what follows it cannot be a part of
it; the form that is written is one of them. -/
namespace MethodLines.Json.Draft

variable {n : Number} {negative : Bool} {whole : Nat} {fraction : List (Fin 10)}
  {exponent : Option Int} {t digits rest : Text}

def Delimited (rest : Text) : Prop :=
  ∀ c, rest.head? = some c → c.isDigit = false ∧ c ≠ '.' ∧ c ≠ 'e' ∧ c ≠ 'E'

structure Digits (t : Text) : Prop where
  filled : t ≠ []
  all : ∀ c ∈ t, c.isDigit = true

inductive FractionText : List (Fin 10) → Text → Prop where
  | none : FractionText [] []
  | some {t : Text} : Digits t → FractionText (t.map digitOf) ('.' :: t)

inductive ExponentText : Option Int → Text → Prop where
  | none : ExponentText none []
  | unsigned {t : Text} (c : Char) : c = 'e' ∨ c = 'E' → Digits t →
      ExponentText (some (digitsValue t)) (c :: t)
  | plus {t : Text} (c : Char) : c = 'e' ∨ c = 'E' → Digits t →
      ExponentText (some (digitsValue t)) (c :: '+' :: t)
  | minus {t : Text} (c : Char) : c = 'e' ∨ c = 'E' → Digits t →
      ExponentText (some (-(digitsValue t : Int))) (c :: '-' :: t)

/-- The texts of a number. A zero in front is the only digit before the point. -/
inductive NumberText : Number → Text → Prop where
  | parts {fraction : List (Fin 10)} {exponent : Option Int} {digits f e : Text}
      (negative : Bool) : Digits digits → (digits.head? = some '0' → digits = ['0']) →
      FractionText fraction f → ExponentText exponent e →
      NumberText ⟨negative, digitsValue digits, fraction, exponent⟩
        ((if negative then ['-'] else []) ++ (digits ++ (f ++ e)))

theorem Digits.exists_cons (digits : Digits t) : ∃ c rest, t = c :: rest ∧ c.isDigit = true := by
  obtain ⟨c, rest, rfl⟩ := List.exists_cons_of_ne_nil digits.filled
  exact ⟨c, rest, rfl, digits.all c List.mem_cons_self⟩

theorem readDigits_append (written : Digits digits)
    (boundary : ∀ c, rest.head? = some c → c.isDigit = false) :
    readDigits (digits ++ rest) = (digits, rest) := by
  rw [readDigits, List.takeWhile_append_of_pos written.all,
    List.dropWhile_append_of_pos written.all]
  cases rest with
  | nil => simp
  | cons c rest => simp [boundary c rfl]

theorem readExponent_append (written : ExponentText exponent t) (negative : Bool) (whole : Nat)
    (fraction : List (Fin 10)) (ended : Delimited rest) :
    readExponent negative whole fraction (t ++ rest) =
      (.number ⟨negative, whole, fraction, exponent⟩, some rest) := by
  have boundary : ∀ c, rest.head? = some c → c.isDigit = false := fun c first => (ended c first).1
  cases written with
  | none =>
    cases rest with
    | nil => rfl
    | cons c rest =>
      obtain ⟨_, _, small, large⟩ := ended c rfl
      simp [readExponent, small, large]
  | @unsigned t c mark digits =>
    have read := readDigits_append digits boundary
    obtain ⟨d, t, rfl, digit⟩ := digits.exists_cons
    have minus : d ≠ '-' := by rintro rfl; contradiction
    have plus : d ≠ '+' := by rintro rfl; contradiction
    rw [List.cons_append] at read
    rcases mark with rfl | rfl <;> simp [readExponent, minus, plus, read]
  | @plus t c mark digits =>
    have read := readDigits_append digits boundary
    obtain ⟨d, t, rfl, digit⟩ := digits.exists_cons
    rw [List.cons_append] at read
    rcases mark with rfl | rfl <;> simp [readExponent, read]
  | @minus t c mark digits =>
    have read := readDigits_append digits boundary
    obtain ⟨d, t, rfl, digit⟩ := digits.exists_cons
    rw [List.cons_append] at read
    rcases mark with rfl | rfl <;> simp [readExponent, read]

theorem head_exponentText (written : ExponentText exponent t) (ended : Delimited rest) (c : Char)
    (first : (t ++ rest).head? = some c) : c.isDigit = false ∧ c ≠ '.' := by
  cases written with
  | none => exact ⟨(ended c first).1, (ended c first).2.1⟩
  | unsigned d mark | plus d mark | minus d mark =>
    cases first
    rcases mark with rfl | rfl <;> decide

theorem readFraction_append {f e : Text} (written : FractionText fraction f)
    (exponentText : ExponentText exponent e) (negative : Bool) (whole : Nat)
    (ended : Delimited rest) :
    readFraction negative whole (f ++ (e ++ rest)) =
      (.number ⟨negative, whole, fraction, exponent⟩, some rest) := by
  have boundary := head_exponentText exponentText ended
  cases written with
  | none =>
    have read := readExponent_append exponentText negative whole [] ended
    show readFraction negative whole (e ++ rest) = _
    unfold readFraction
    split
    · rename_i point
      exact absurd rfl (boundary '.' (by rw [point]; rfl)).2
    · exact read
  | @some digits written =>
    have read := readExponent_append exponentText negative whole (digits.map digitOf) ended
    have split := readDigits_append written fun c first => (boundary c first).1
    obtain ⟨d, digits, rfl, _⟩ := written.exists_cons
    show readFraction negative whole ('.' :: (d :: digits ++ (e ++ rest))) = _
    simp only [readFraction, split]
    exact read

theorem head_fractionText {f e : Text} (written : FractionText fraction f)
    (exponentText : ExponentText exponent e) (ended : Delimited rest) (c : Char)
    (first : (f ++ (e ++ rest)).head? = some c) : c.isDigit = false := by
  cases written with
  | none => exact (head_exponentText exponentText ended c first).1
  | some digits =>
    cases first
    rfl

/-- The rest of a number behind its sign. -/
theorem readNumber_append {f e : Text} (written : Digits digits)
    (zero : digits.head? = some '0' → digits = ['0']) (fractionText : FractionText fraction f)
    (exponentText : ExponentText exponent e) (negative : Bool) (ended : Delimited rest) :
    readNumber negative (digits ++ (f ++ (e ++ rest))) =
      (.number ⟨negative, digitsValue digits, fraction, exponent⟩, some rest) := by
  have split := readDigits_append written (head_fractionText fractionText exponentText ended)
  have read :=
    readFraction_append fractionText exponentText negative (digitsValue digits) ended
  unfold readNumber
  rw [split]
  split
  · rename_i missing
    exact absurd (congrArg Prod.fst missing) written.filled
  · rename_i long
    have long := congrArg Prod.fst long
    dsimp only at long
    rw [long] at zero
    cases zero rfl
  · rename_i equal
    cases equal
    exact read

/-- A number is read behind its sign, or from its first digit on. -/
theorem NumberText.read (written : NumberText n t) :
    (∃ unsigned, t = '-' :: unsigned ∧ ∀ rest, Delimited rest →
      readNumber true (unsigned ++ rest) = (.number n, some rest)) ∨
    ∃ c digits, t = c :: digits ∧ c.isDigit = true ∧ ∀ rest, Delimited rest →
      readNumber false (c :: (digits ++ rest)) = (.number n, some rest) := by
  obtain @⟨fraction, exponent, digits, f, e, negative, written, zero, fractionText, exponentText⟩ :=
    written
  have read : ∀ rest, Delimited rest → readNumber negative (digits ++ (f ++ e) ++ rest) =
      (.number ⟨negative, digitsValue digits, fraction, exponent⟩, some rest) := by
    intro rest ended
    rw [List.append_assoc, List.append_assoc]
    exact readNumber_append written zero fractionText exponentText negative ended
  cases negative with
  | true => exact Or.inl ⟨_, rfl, read⟩
  | false =>
    obtain ⟨c, digits, rfl, digit⟩ := written.exists_cons
    exact Or.inr ⟨c, _, rfl, digit, read⟩

theorem isDigit_of_mem_decimal (n : Nat) : ∀ c ∈ Text.decimal n, c.isDigit = true :=
  fun _ member => Nat.isDigit_of_mem_toDigits (by decide) (by decide) member

theorem not_mem_decimal {c : Char} (other : c.isDigit = false) (n : Nat) : c ∉ Text.decimal n := by
  intro inside
  rw [isDigit_of_mem_decimal n c inside] at other
  contradiction

theorem decimal_ne_nil (n : Nat) : Text.decimal n ≠ [] := Nat.toDigits_ne_nil

theorem digits_decimal (n : Nat) : Digits (Text.decimal n) :=
  ⟨decimal_ne_nil n, isDigit_of_mem_decimal n⟩

theorem digitsValue_decimal (n : Nat) : digitsValue (Text.decimal n) = n := by
  simp [digitsValue, Text.decimal]

theorem decimal_inj {m n : Nat} : Text.decimal m = Text.decimal n ↔ m = n := by
  constructor
  · intro same
    rw [← digitsValue_decimal m, same, digitsValue_decimal]
  · rintro rfl
    rfl

/-- Only zero itself is written with a zero in front. -/
theorem decimal_head (n : Nat) (positive : 0 < n) : (Text.decimal n).head? ≠ some '0' := by
  induction n using Nat.strongRecOn with
  | _ n ih =>
    unfold Text.decimal at ih ⊢
    by_cases small : n < 10
    · rw [Nat.toDigits_of_lt_base small]
      simp only [List.head?_cons, ne_eq, Option.some.injEq, Nat.digitChar_eq_zero]
      omega
    · have front := ih (n / 10) (by omega) (by omega)
      rw [Nat.toDigits_of_base_le (by decide) (by omega), List.head?_append]
      cases first : (Nat.toDigits 10 (n / 10)).head? with
      | none => exact absurd (List.head?_eq_none_iff.mp first) Nat.toDigits_ne_nil
      | some c => simpa [first] using front

theorem digitOf_digitChar : ∀ d : Fin 10, digitOf d.val.digitChar = d := by
  decide

theorem fractionText_of_ne_nil (some_digit : fraction ≠ []) :
    FractionText fraction ('.' :: fraction.map fun d => d.val.digitChar) := by
  have values : (fraction.map fun d => d.val.digitChar).map digitOf = fraction := by
    rw [List.map_map]
    exact (List.map_congr_left fun d _ => digitOf_digitChar d).trans (List.map_id _)
  have digits : Digits (fraction.map fun d => d.val.digitChar) := by
    refine ⟨by simpa using some_digit, fun c member => ?_⟩
    obtain ⟨d, _, rfl⟩ := List.mem_map.mp member
    rw [Nat.isDigit_digitChar]
    simp
  have written := FractionText.some digits
  rwa [values] at written

/-- How the exponent is written. -/
theorem exponentText_render (exponent : Option Int) : ExponentText exponent (match exponent with
    | none => ""
    | some (.ofNat e) => "e" ++ Text.decimal e
    | some (.negSucc e) => "e-" ++ Text.decimal (e + 1)) := by
  match exponent with
  | none => exact .none
  | some (.ofNat e) =>
    have written := ExponentText.unsigned 'e' (Or.inl rfl) (digits_decimal e)
    rwa [digitsValue_decimal] at written
  | some (.negSucc e) =>
    have written := ExponentText.minus 'e' (Or.inl rfl) (digits_decimal (e + 1))
    rwa [digitsValue_decimal] at written

/-- A number is written in one of its forms. -/
theorem numberText_render (n : Number) : NumberText n n.render := by
  obtain ⟨negative, whole, fraction, exponent⟩ := n
  have head : (Text.decimal whole).head? = some '0' → Text.decimal whole = ['0'] := by
    intro zero
    rcases Nat.eq_zero_or_pos whole with rfl | positive
    · rfl
    · exact absurd zero (decimal_head whole positive)
  have fractionText : FractionText fraction
      (if fraction.isEmpty then [] else '.' :: fraction.map fun d => d.val.digitChar) := by
    cases fraction with
    | nil => exact .none
    | cons d fraction => exact fractionText_of_ne_nil (by simp)
  have written := NumberText.parts negative (digits_decimal whole) head fractionText
    (exponentText_render exponent)
  rw [digitsValue_decimal] at written
  simp only [Number.render, List.append_assoc]
  exact written

end MethodLines.Json.Draft
