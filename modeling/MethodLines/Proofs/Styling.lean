import MethodLines.Ansi
import Mathlib.Data.List.Forall2

/-! What styling adds to a text. The sequences that turn styles on and off can be taken out
again by one who knows nothing of where they were put in, and what is left is the text as it is
without colour. This needs the text itself to be free of escape characters. -/
namespace MethodLines.Ansi

variable {painted plain t : Text} {style : Style}

def isParameter (c : Char) : Bool := c.isDigit || c = ';'

/-- A text without its style sequences: each is an escape character, a bracket, parameters
and an `m`. -/
def unstyled : Text → Text
  | [] => []
  | '\x1b' :: '[' :: t =>
    match _ended : t.dropWhile isParameter with
    | 'm' :: rest => unstyled rest
    | _ => '\x1b' :: '[' :: unstyled t
  | c :: t => c :: unstyled t
termination_by t => t.length
decreasing_by
  · have shorter := (List.dropWhile_suffix isParameter (l := t)).length_le
    rw [_ended, List.length_cons] at shorter
    simp only [List.length_cons]
    omega
  · simp only [List.length_cons]
    omega
  · simp

/-- A text whose style sequences are whole: taking them out leaves the plain text, whatever
stands behind it. -/
def Styled (painted plain : Text) : Prop :=
  ∀ rest, unstyled (painted ++ rest) = plain ++ unstyled rest

theorem Styled.unstyled_eq (styled : Styled painted plain) : unstyled painted = plain := by
  simpa [unstyled] using styled []

theorem Styled.append {painted' plain' : Text} (first : Styled painted plain)
    (second : Styled painted' plain') : Styled (painted ++ painted') (plain ++ plain') := by
  intro rest
  rw [List.append_assoc, first, second, List.append_assoc]

theorem Styled.flatMap {α : Type} {f g : α → Text} {xs : List α}
    (styled : ∀ x ∈ xs, Styled (f x) (g x)) : Styled (xs.flatMap f) (xs.flatMap g) := by
  induction xs with
  | nil => exact fun _ => rfl
  | cons x xs ih =>
    obtain ⟨first, others⟩ := List.forall_mem_cons.mp styled
    rw [List.flatMap_cons, List.flatMap_cons]
    exact first.append (ih others)

theorem unstyled_cons {c : Char} (ink : c ≠ escapeChar) (t : Text) :
    unstyled (c :: t) = c :: unstyled t := by
  rw [unstyled]
  rintro t rfl
  contradiction

theorem styled_of_not_mem (free : escapeChar ∉ t) : Styled t t := by
  intro rest
  induction t with
  | nil => rfl
  | cons c t ih =>
    rw [List.mem_cons, not_or] at free
    rw [List.cons_append, unstyled_cons (Ne.symm free.1), ih free.2, List.cons_append]

theorem Styled.intercalate {separator : Text} {painted plain : List Text}
    (free : escapeChar ∉ separator) (styled : List.Forall₂ Styled painted plain) :
    Styled (separator.intercalate painted) (separator.intercalate plain) := by
  induction styled with
  | nil => exact fun _ => rfl
  | cons whole others ih =>
    cases others with
    | nil => simpa using whole
    | cons next rest =>
      rw [List.intercalate_cons_cons, List.intercalate_cons_cons]
      exact (whole.append (styled_of_not_mem free)).append ih

/-- A style sequence leaves nothing behind. -/
theorem styled_sequence {parameters : Text} (known : parameters.all isParameter = true) :
    Styled (escapeChar :: '[' :: (parameters ++ ['m'])) [] := by
  intro rest
  have ended : (parameters ++ ['m'] ++ rest).dropWhile isParameter = 'm' :: rest := by
    rw [List.append_assoc, List.dropWhile_append_of_pos (List.all_eq_true.mp known)]
    rfl
  show unstyled ('\x1b' :: '[' :: (parameters ++ ['m'] ++ rest)) = _
  rw [unstyled]
  split
  · rename_i rest' found
    rw [ended] at found
    cases found
    rfl
  · rename_i other
    exact absurd ended (other rest)

theorem styled_start (style : Style) : Styled style.start [] := by
  apply styled_sequence
  cases style <;> decide

theorem styled_reset : Styled reset [] :=
  styled_sequence (show ['0'].all isParameter = true by decide)

/-- A text without sequences of its own turns no style off. -/
theorem resume_eq_self (style : Style) (free : escapeChar ∉ t) : resume style t = t := by
  induction t with
  | nil => rfl
  | cons c t ih =>
    rw [List.mem_cons, not_or] at free
    rw [resume, ih free.2]
    rintro t rfl
    exact absurd rfl free.1

theorem styled_paint (style : Style) (free : escapeChar ∉ t) : Styled (paint true style t) t := by
  have whole := ((styled_start style).append (styled_of_not_mem free)).append styled_reset
  rw [List.nil_append, List.append_nil] at whole
  show Styled (style.start ++ resume style t ++ reset) t
  rw [resume_eq_self style free]
  exact whole

end MethodLines.Ansi
