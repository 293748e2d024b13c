import MethodLines.Json.StringReading

/-! The texts of a string. A character can stand for itself or be escaped in one of two ways,
and each of its forms is scanned whatever follows it. The form that is written is one of them,
so that a quoted text is read back whole. -/
namespace MethodLines.Json

open StringScan

variable {c : Char} {u : StringUnit} {units : List StringUnit} {value : Except Fault Text}
  {t inside rest : Text}

inductive UnitText : StringUnit → Text → Prop where
  | plain {c : Char} : c ≠ '"' → c ≠ '\\' → ¬ c.toNat < 0x20 → UnitText (.char c) [c]
  | short {letter c : Char} : short? letter = some c → UnitText (.char c) ['\\', letter]
  | code {a b c d : Char} {n : Nat} : code? a b c d = some n →
      UnitText (.ofCode n) ['\\', 'u', a, b, c, d]

inductive UnitsText : List StringUnit → Text → Prop where
  | nil : UnitsText [] []
  | cons {u : StringUnit} {units : List StringUnit} {t rest : Text} :
      UnitText u t → UnitsText units rest → UnitsText (u :: units) (t ++ rest)

/-- A string in its quotes. It has no value if it holds a half without the other. -/
def StringText (value : Except Fault Text) (t : Text) : Prop :=
  ∃ units inside, UnitsText units inside ∧ StringUnit.join (.error .malformed) units = value ∧
    t = '"' :: (inside ++ ['"'])

theorem ofText_unit (written : UnitText u t) (rest : Text) :
    ofText (t ++ rest) = push u (ofText rest) := by
  cases written with
  | @plain c quote slash printed =>
    show ofText (c :: rest) = _
    rw [ofText.eq_7]
    · rw [if_neg printed]
    all_goals simp_all
  | @short letter c known =>
    have numeric : letter ≠ 'u' := by
      rintro rfl
      rw [show short? 'u' = none from rfl] at known
      contradiction
    show ofText ('\\' :: letter :: rest) = _
    rw [ofText.eq_5]
    · rw [known]
    all_goals simp_all
  | @code a b c d n value =>
    show ofText ('\\' :: 'u' :: a :: b :: c :: d :: rest) = _
    rw [ofText, value]

theorem ofText_units (written : UnitsText units inside) (rest : Text) :
    ofText (inside ++ '"' :: rest) = ⟨units, .ok rest⟩ := by
  induction written with
  | nil => simp [ofText]
  | cons unit units ih =>
    rw [List.append_assoc, ofText_unit unit, ih]
    rfl

/-- A string is read behind its opening quote. -/
theorem StringText.draft (written : StringText value t) :
    ∃ inside, t = '"' :: (inside ++ ['"']) ∧
      ∀ rest, (ofText (inside ++ '"' :: rest)).draft = (.string value, some rest) := by
  obtain ⟨units, inside, unitsText, rfl, rfl⟩ := written
  refine ⟨inside, rfl, fun rest => ?_⟩
  rw [ofText_units unitsText, StringScan.draft]

theorem code?_of_control : ∀ n < 0x20,
    code? '0' '0' (n / 16).digitChar (n % 16).digitChar = some n := by
  decide

theorem ofCode_toNat (c : Char) : StringUnit.ofCode c.toNat = .char c := by
  have valid : c.toNat.isValidChar := c.valid
  simp [StringUnit.ofCode, Text.ofCode?, valid]

theorem unitText_escape (c : Char) : UnitText (.char c) (escape c) := by
  unfold escape
  iterate 7
    split
    · subst c
      exact .short rfl
  split
  · rename_i control
    rw [← ofCode_toNat c]
    exact .code (code?_of_control c.toNat control)
  · rename_i quote slash _ _ _ _ _ printed
    exact .plain quote slash printed

theorem unitsText_flatMap_escape (t : Text) : UnitsText (t.map .char) (t.flatMap escape) := by
  induction t with
  | nil => exact .nil
  | cons c t ih => exact .cons (unitText_escape c) ih

theorem join_map_char (atEnd : Except Fault Text) (t : Text) :
    StringUnit.join atEnd (t.map .char) = .ok t := by
  induction t with
  | nil => rfl
  | cons c t ih => rw [List.map_cons, StringUnit.join, ih]; rfl

/-- The string that is written for a text has that text as its value. -/
theorem stringText_renderString (t : Text) : StringText (.ok t) (renderString t) :=
  ⟨t.map .char, t.flatMap escape, unitsText_flatMap_escape t, join_map_char _ t, rfl⟩

end MethodLines.Json
