import Mathlib.Data.List.Forall2
import Mathlib.Data.Nat.Digits.Defs
import MethodLines.Toml.Scalar

/-! The digits of numbers, in bases up to sixteen. -/
namespace MethodLines.Toml

variable {base d : Nat} {c : Char} {ds : List Nat} {t u : Text}

/-- What holds of all characters of a text is decided by going through it. -/
instance (priority := high) decidableForallMem {p : Char → Prop} [DecidablePred p] (t : Text) :
    Decidable (∀ c ∈ t, p c) :=
  List.decidableBAll p t

/-- How a digit can be written. -/
inductive DigitChar (base : Nat) : Nat → Char → Prop where
  | lower {d : Nat} : d < base → DigitChar base d d.digitChar
  | upper {d : Nat} : d < base → DigitChar base d d.digitChar.toUpper

abbrev Numeral (base : Nat) : List Nat → Text → Prop := List.Forall₂ (DigitChar base)

/-- Digits with underscores among them, each between two of them. -/
inductive Grouped (base : Nat) : List Nat → Text → Prop where
  | last {d : Nat} {c : Char} : DigitChar base d c → Grouped base [d] [c]
  | cons {d : Nat} {c : Char} {ds : List Nat} {t : Text} : DigitChar base d c →
      Grouped base ds t → Grouped base (d :: ds) (c :: t)
  | group {d : Nat} {c : Char} {ds : List Nat} {t : Text} : DigitChar base d c →
      Grouped base ds t → Grouped base (d :: ds) (c :: '_' :: t)

def valueOf (base : Nat) (ds : List Nat) : Nat := Nat.ofDigits base ds.reverse

/-- Whether a character can be part of a scalar that has no quotes. -/
def isPlainChar (c : Char) : Bool := isScalarChar c && c ≠ '"' && c ≠ '\''

theorem valueOf_eq_foldl (base : Nat) (ds : List Nat) :
    valueOf base ds = ds.foldl (fun n d => n * base + d) 0 := by
  rw [valueOf, Nat.ofDigits_eq_foldr, List.foldr_reverse]
  simp only [Nat.cast_id, Nat.add_comm, Nat.mul_comm]

namespace DigitChar

theorem lt (written : DigitChar base d c) : d < base := by
  cases written with
  | lower small | upper small => exact small

theorem of_digits {p : Nat → Char → Prop} (digit : DigitChar base d c) (small : base ≤ 16)
    (all : ∀ d < 16, p d d.digitChar ∧ p d d.digitChar.toUpper) : p d c := by
  have bound := Nat.lt_of_lt_of_le digit.lt small
  cases digit with
  | lower => exact (all _ bound).1
  | upper => exact (all _ bound).2

theorem hexDigit? (digit : DigitChar base d c) (small : base ≤ 16) :
    Text.hexDigit? c = some d :=
  digit.of_digits (p := fun d c => Text.hexDigit? c = some d) small (by decide)

theorem isDigitIn (digit : DigitChar base d c) (small : base ≤ 16) {base' : Nat}
    (wide : base ≤ base') : isDigitIn base' c = true := by
  rw [Toml.isDigitIn, digit.hexDigit? small]
  exact decide_eq_true (Nat.lt_of_lt_of_le digit.lt wide)

theorem isPlainChar (digit : DigitChar base d c) (small : base ≤ 16) :
    isPlainChar c = true :=
  digit.of_digits (p := fun _ c => Toml.isPlainChar c = true) small (by decide)

theorem isDigit (digit : DigitChar 10 d c) : c.isDigit = true := by
  have all : ∀ d < 10, d.digitChar.isDigit = true ∧ d.digitChar.toUpper.isDigit = true := by decide
  cases digit with
  | lower small => exact (all _ small).1
  | upper small => exact (all _ small).2

theorem ne (digit : DigitChar 10 d c) {mark : Char} (other : mark.isDigit = false) : c ≠ mark := by
  rintro rfl
  rw [digit.isDigit] at other
  cases other

theorem ne_underscore (digit : DigitChar base d c) (small : base ≤ 16) : c ≠ '_' :=
  digit.of_digits (p := fun _ c => c ≠ '_') small (by decide)

end DigitChar

/-- Digits can be written. -/
theorem numeral_digitChar (ds : List Nat) (small : ∀ d ∈ ds, d < base) :
    Numeral base ds (ds.map Nat.digitChar) := by
  induction ds with
  | nil => exact .nil
  | cons d ds ih =>
    obtain ⟨first, others⟩ := List.forall_mem_cons.mp small
    exact .cons (.lower first) (ih others)

theorem valueIn_eq (small : base ≤ 16) (written : Numeral base ds t) :
    valueIn base t = valueOf base ds := by
  have values : t.map (fun c => (Text.hexDigit? c).getD 0) = ds := by
    induction written with
    | nil => rfl
    | cons digit _ ih => rw [List.map_cons, digit.hexDigit? small, ih]; rfl
  rw [valueOf_eq_foldl, ← values, List.foldl_map, valueIn]

theorem all_numeral (written : Numeral base ds t) {p : Char → Bool}
    (digits : ∀ d c, DigitChar base d c → p c = true) : ∀ c ∈ t, p c = true := by
  induction written with
  | nil => simp
  | cons digit _ ih => exact List.forall_mem_cons.mpr ⟨digits _ _ digit, ih⟩

theorem length_numeral (written : Numeral base ds t) : t.length = ds.length :=
  written.length_eq.symm

section

variable {p : Char → Bool}

theorem dropWhile_append (ended : ∀ c ∈ u.head?, p c = false) (t : Text) :
    (t ++ u).dropWhile p = t.dropWhile p ++ u := by
  induction t with
  | nil =>
    cases u with
    | nil => rfl
    | cons c u => simp [ended c rfl]
  | cons c t ih =>
    rw [List.cons_append, List.dropWhile_cons, List.dropWhile_cons, ih]
    split <;> rfl

/-- A run of characters ends where one comes that is none of them. -/
theorem run_append (all : ∀ c ∈ t, p c = true) (ended : ∀ c ∈ u.head?, p c = false) :
    (t ++ u).takeWhile p = t ∧ (t ++ u).dropWhile p = u := by
  rw [List.takeWhile_append_of_pos all, List.dropWhile_append_of_pos all]
  cases u with
  | nil => simp
  | cons c u => simp [ended c rfl]

end

theorem isGrouped_cons {p : Char → Bool} (underscore : c ≠ '_')
    (apart : ∀ u', u = '_' :: u' → False) : isGrouped p (c :: u) = isGrouped p u :=
  isGrouped.eq_4 _ _ _ underscore fun _ _ => apart _

namespace Grouped

theorem start (written : Grouped base ds t) : ∃ d c ds' t', ds = d :: ds' ∧ t = c :: t' ∧
    DigitChar base d c := by
  cases written with
  | last digit | cons digit | group digit => exact ⟨_, _, _, _, rfl, rfl, digit⟩

theorem all (written : Grouped base ds t) {p : Char → Bool} (underscore : p '_' = true)
    (digits : ∀ d c, DigitChar base d c → p c = true) : ∀ c ∈ t, p c = true := by
  induction written with
  | last digit => exact List.forall_mem_singleton.mpr (digits _ _ digit)
  | cons digit _ ih => exact List.forall_mem_cons.mpr ⟨digits _ _ digit, ih⟩
  | group digit _ ih =>
    exact List.forall_mem_cons.mpr ⟨digits _ _ digit, List.forall_mem_cons.mpr ⟨underscore, ih⟩⟩

theorem of_numeral (written : Numeral base ds t) (filled : ds ≠ []) : Grouped base ds t := by
  induction written with
  | nil => exact absurd rfl filled
  | cons digit others ih =>
    cases others with
    | nil => exact .last digit
    | cons => exact .cons digit (ih (List.cons_ne_nil _ _))

/-- Without the underscores the digits are left. -/
theorem ungroup (small : base ≤ 16) (written : Grouped base ds t) :
    Numeral base ds (ungroup t) := by
  induction written with
  | last digit =>
    rw [Toml.ungroup, List.filter_cons_of_pos (by simpa using digit.ne_underscore small)]
    exact .cons digit .nil
  | cons digit _ ih =>
    rw [Toml.ungroup, List.filter_cons_of_pos (by simpa using digit.ne_underscore small)]
    exact .cons digit ih
  | group digit _ ih =>
    rw [Toml.ungroup, List.filter_cons_of_pos (by simpa using digit.ne_underscore small),
      List.filter_cons_of_neg (by simp)]
    exact .cons digit ih

theorem digits? (small : base ≤ 16) (written : Grouped base ds t) :
    digits? t = some (Toml.ungroup t) := by
  have digits := written.ungroup small
  obtain ⟨d, _, ds, _, rfl, _, _⟩ := written.start
  unfold Toml.digits?
  generalize Toml.ungroup t = digits at digits ⊢
  cases digits with
  | cons => rfl

/-- Digits are grouped well whatever comes behind them, if that is. -/
theorem isGrouped_append {p : Char → Bool} (small : base ≤ 16)
    (digits : ∀ d c, DigitChar base d c → p c = true) (written : Grouped base ds t)
    (apart : ∀ u', u = '_' :: u' → False) : isGrouped p (t ++ u) = isGrouped p u := by
  induction written with
  | last digit => exact isGrouped_cons (digit.ne_underscore small) apart
  | cons digit others ih =>
    obtain ⟨_, c, _, t, _, rfl, first⟩ := others.start
    rw [List.cons_append, isGrouped_cons (digit.ne_underscore small)]
    · exact ih
    · rintro t' equal
      cases equal
      exact first.ne_underscore small rfl
  | group digit others ih =>
    obtain ⟨_, c, _, t, _, rfl, first⟩ := others.start
    rw [List.cons_append, List.cons_append, List.cons_append,
      isGrouped.eq_3 _ _ _ _ (digit.ne_underscore small), digits _ _ digit, digits _ _ first]
    exact ih

theorem isGrouped {p : Char → Bool} (small : base ≤ 16)
    (digits : ∀ d c, DigitChar base d c → p c = true) (written : Grouped base ds t) :
    isGrouped p t = true := by
  have grouped := written.isGrouped_append (u := []) small digits (by simp)
  rwa [List.append_nil] at grouped

theorem isDigit_or (written : Grouped 10 ds t) :
    ∀ c ∈ t, (c.isDigit || decide (c = '_')) = true :=
  written.all (p := fun c => c.isDigit || decide (c = '_')) (by decide) fun _ _ digit => by
    rw [digit.isDigit]
    rfl

end Grouped
end MethodLines.Toml
