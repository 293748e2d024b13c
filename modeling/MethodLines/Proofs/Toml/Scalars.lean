import MethodLines.Proofs.Toml.Dates
import MethodLines.Settings.Document

/-! The texts of TOML values without quotes. They are read as what they stand for, whatever ends
them. -/
namespace MethodLines.Toml

variable {c : Char} {t rest : Text} {v : Value}

/-- Integers have 128 bits, whether signed or not. -/
inductive ScalarText : Value → Text → Prop where
  | yes : ScalarText (.boolean true) "true"
  | no : ScalarText (.boolean false) "false"
  | integer {n : Int} {t : Text} : IntegerText n t → -2 ^ 127 ≤ n → n < 2 ^ 128 →
      ScalarText (.integer (some n)) t
  | float {t : Text} : FloatText t → ScalarText (.float true) t
  | datetime {t : Text} : DatetimeText t → ScalarText .datetime t

/-- What can stand behind a value: nothing that it would go on with. -/
structure Behind (rest : Text) : Prop where
  ended : ∀ c ∈ rest.head?, isScalarChar c = false
  unclocked : ∀ c u, rest = ' ' :: c :: u → c.isDigit = false

theorem isScalarChar_of_isPlainChar (plain : ∀ c ∈ t, isPlainChar c = true) :
    ∀ c ∈ t, isScalarChar c = true := by
  intro c listed
  have plain := plain c listed
  simp only [isPlainChar, Bool.and_eq_true] at plain
  exact plain.1.1

theorem readScalar_run (plain : ∀ c ∈ t, isPlainChar c = true) (behind : Behind rest) :
    readScalar (t ++ rest) = (scalar? t).map (·, rest) := by
  have run := run_append (isScalarChar_of_isPlainChar plain) behind.ended
  unfold readScalar
  rw [run.1, run.2]
  dsimp only
  split
  · rename_i c after _
    exact if_neg (by simp [behind.unclocked c after rfl])
  · rfl

theorem scalar?_of_ne (yes : t ≠ ("true" : Text)) (no : t ≠ ("false" : Text)) :
    scalar? t =
      (integer? t).or ((float? t).or (if isDatetime t then some .datetime else none)) := by
  rw [scalar?, if_neg yes, if_neg no]

theorem scalar?_integer {n : Int} (written : IntegerText n t) :
    scalar? t = some (.integer (some n)) := by
  have read := integer?_eq written
  rw [scalar?_of_ne, read]
  · rfl
  · rintro rfl
    cases read
  · rintro rfl
    cases read

theorem scalar?_float (written : FloatText t) : scalar? t = some (.float true) := by
  have read := float?_eq written
  rw [scalar?_of_ne, integer?_floatText written, read]
  · rfl
  · rintro rfl
    cases read
  · rintro rfl
    cases read

theorem scalar?_datetime (written : DatetimeText t) : scalar? t = some .datetime := by
  have known := isDatetime_eq written
  have none : integer? t = none ∧ float? t = none := by
    obtain ⟨ds, digits, mark, u, rfl, numeral, long, marked⟩ := written.start
    exact numberless numeral long marked u
  rw [scalar?_of_ne, none.1, none.2, known]
  · rfl
  · rintro rfl
    cases known
  · rintro rfl
    cases known

/-- A date takes along the time behind one blank. -/
theorem readScalar_date {u : Text} (date : DateText t) (digit : c.isDigit = true) :
    readScalar (t ++ ' ' :: c :: u) =
      if isDatetime (t ++ ' ' :: (c :: u).takeWhile isScalarChar) then
        some (.datetime, (c :: u).dropWhile isScalarChar)
      else none := by
  have day := date.date? []
  rw [List.append_nil] at day
  have run := run_append (u := ' ' :: c :: u) (isScalarChar_of_isPlainChar date.isPlainChar)
    (by simp [isScalarChar])
  unfold readScalar
  rw [run.1, run.2]
  dsimp only
  rw [day]
  exact if_pos digit

theorem TimeText.start (written : TimeText t) : ∃ c u, t = c :: u ∧ c.isDigit = true := by
  obtain ⟨_, u, rfl, ⟨⟨ds, digits, long, _⟩, _, _, _⟩⟩ := written.clock
  cases digits with
  | nil => cases long
  | cons digit _ => exact ⟨_, _, rfl, digit.isDigit⟩

theorem readScalar_datetime (written : DatetimeText t) (behind : Behind rest) :
    readScalar (t ++ rest) = some (.datetime, rest) := by
  have known := isDatetime_eq written
  have alone : (∀ c ∈ t, isPlainChar c = true) →
      readScalar (t ++ rest) = some (.datetime, rest) := by
    intro plain
    rw [readScalar_run plain behind, scalar?_datetime written]
    rfl
  cases written with
  | date date => exact alone date.isPlainChar
  | time time => exact alone time.isPlainChar
  | @both mark d t o date marked time offset =>
    have plain : ∀ c ∈ t ++ o, isPlainChar c = true :=
      List.forall_mem_append.mpr ⟨time.isPlainChar, offset.isPlainChar⟩
    by_cases blank : mark = ' '
    · subst blank
      obtain ⟨c, u, started, digit⟩ := time.start
      have run := run_append (isScalarChar_of_isPlainChar plain) behind.ended
      rw [started] at run known ⊢
      rw [List.append_assoc, List.cons_append]
      refine (readScalar_date date digit).trans ?_
      show (if isDatetime (d ++ ' ' :: (c :: u ++ o ++ rest).takeWhile isScalarChar) then
        some (Value.datetime, (c :: u ++ o ++ rest).dropWhile isScalarChar) else none) = _
      rw [run.1, run.2, if_pos known]
    · refine alone (List.forall_mem_append.mpr ⟨date.isPlainChar,
        List.forall_mem_cons.mpr ⟨?_, plain⟩⟩)
      simp only [List.mem_cons, List.not_mem_nil, or_false, blank] at marked
      rcases marked with rfl | rfl <;> decide

theorem readScalar_scalarText (written : ScalarText v t) (behind : Behind rest) :
    readScalar (t ++ rest) = some (v, rest) := by
  cases written with
  | yes | no => exact readScalar_run (by decide) behind
  | integer integer =>
    rw [readScalar_run integer.isPlainChar behind, scalar?_integer integer]
    rfl
  | float float =>
    rw [readScalar_run float.isPlainChar behind, scalar?_float float]
    rfl
  | datetime datetime => exact readScalar_datetime datetime behind

theorem ScalarText.start (written : ScalarText v t) :
    ∃ c u, t = c :: u ∧ isPlainChar c = true := by
  have ofAll : ∀ {t : Text}, t ≠ [] → (∀ c ∈ t, isPlainChar c = true) →
      ∃ c u, t = c :: u ∧ isPlainChar c = true := by
    intro t filled plain
    obtain ⟨c, u, rfl⟩ := List.exists_cons_of_ne_nil filled
    exact ⟨c, u, rfl, plain c List.mem_cons_self⟩
  cases written with
  | yes | no => exact ofAll (by decide) (by decide)
  | integer integer =>
    refine ofAll ?_ integer.isPlainChar
    rintro rfl
    cases integer?_eq integer
  | float float =>
    refine ofAll ?_ float.isPlainChar
    rintro rfl
    cases float?_eq float
  | datetime datetime =>
    obtain ⟨_, _, _, u, rfl, numeral, long, _⟩ := datetime.start
    cases numeral with
    | nil => cases long
    | cons digit _ => exact ⟨_, _, rfl, digit.isPlainChar (by decide)⟩

theorem ScalarText.isPassable (written : ScalarText v t) : v.isPassable = true := by
  cases written with
  | @integer n t _ lower upper =>
    rw [Value.isPassable, Bool.and_eq_true]
    exact ⟨decide_eq_true lower, decide_eq_true upper⟩
  | _ => rfl

end MethodLines.Toml
