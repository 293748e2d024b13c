import MethodLines.Proofs.Text.Lines

/-! What trimming leaves of a text. Blanks around it do not show in the result, which has
none at its own ends; and what a text starts with is still in front unless it starts with a
blank itself or is cut into from behind. -/
namespace MethodLines.Text

variable {c : Char} {s t mark rest : Text}

theorem rdropWhile_append (p : Char → Bool) (s t : Text) : (s ++ t).rdropWhile p =
    if t.rdropWhile p = [] then s.rdropWhile p else s ++ t.rdropWhile p := by
  simp only [List.rdropWhile, List.reverse_append, List.dropWhile_append, List.isEmpty_iff,
    List.reverse_eq_nil_iff]
  split
  · rfl
  · rw [List.reverse_append, List.reverse_reverse]

theorem trim_blank_append (blank : ∀ c ∈ s, isBlank c = true) (t : Text) :
    trim (s ++ t) = trim t := by
  rw [trim_eq, trim_eq, List.dropWhile_append_of_pos blank]

theorem trim_append_blank (blank : ∀ c ∈ s, isBlank c = true) (t : Text) :
    trim (t ++ s) = trim t := by
  have dropped : s.rdropWhile isBlank = [] := List.rdropWhile_eq_nil_iff.mpr blank
  rw [trim_eq, trim_eq, List.dropWhile_append]
  split
  · next empty =>
    rw [List.dropWhile_eq_nil_iff.mpr blank, List.isEmpty_iff.mp empty]
  · rw [rdropWhile_append, if_pos dropped]

theorem isBlank_getLast_trim (last : (trim t).getLast? = some c) : isBlank c = false := by
  have filled : trim t ≠ [] := by
    intro empty
    simp [empty] at last
  rw [List.getLast?_eq_some_getLast filled, Option.some.injEq] at last
  simpa [← trim_eq, last] using List.rdropWhile_last_not isBlank (t.dropWhile isBlank) filled

theorem trim_trim (t : Text) : trim (trim t) = trim t :=
  trim_eq_self (fun _ => isBlank_head_trim) fun _ => isBlank_getLast_trim

theorem trim_eq_self_iff : trim t = t ↔
    (∀ c, t.head? = some c → isBlank c = false) ∧ ∀ c, t.getLast? = some c → isBlank c = false := by
  constructor
  · intro whole
    rw [← whole]
    exact ⟨fun _ => isBlank_head_trim, fun _ => isBlank_getLast_trim⟩
  · rintro ⟨first, last⟩
    exact trim_eq_self first last

theorem trim_eq_nil_iff : trim t = [] ↔ ∀ c ∈ t, isBlank c = true := by
  rw [trim_eq, List.rdropWhile_eq_nil_iff]
  constructor
  · intro blank
    rw [← List.dropWhile_eq_nil_iff]
    cases kept : t.dropWhile isBlank with
    | nil => rfl
    | cons d rest =>
      have other := List.head?_dropWhile_not isBlank t
      simp [kept, blank d (by simp [kept])] at other
  · intro blank c inside
    exact blank c ((List.dropWhile_suffix isBlank).subset inside)

theorem trim_dropFinal (blank : isBlank c = true) (t : Text) : trim (dropFinal c t) = trim t := by
  rcases dropFinal_eq_iff.mp (rfl : dropFinal c t = _) with split | ⟨same, _⟩
  · conv_rhs => rw [split]
    exact (trim_append_blank (by simpa using blank) _).symm
  · rw [← same]

theorem length_trim_le (t : Text) : (trim t).length ≤ t.length :=
  (List.rdropWhile_prefix isBlank _).length_le.trans (List.dropWhile_suffix isBlank).length_le

theorem trim_eq_self_of_kept (found : t <+: trim t) : trim t = t :=
  (found.eq_of_length_le (length_trim_le t)).symm

theorem isBlank_head_of_prefix_trim (found : mark <+: trim t)
    (first : mark.head? = some c) : isBlank c = false := by
  obtain ⟨rest, whole⟩ := found
  apply isBlank_head_trim (t := t)
  rw [← whole, List.head?_append, first]
  rfl

/-- What stands in front without a blank before it stays, if it is not cut into from behind. -/
theorem prefix_trim (first : ∀ c, mark.head? = some c → isBlank c = false)
    (kept : (∀ c, mark.getLast? = some c → isBlank c = false) ∨ ∃ c ∈ rest, isBlank c = false) :
    mark <+: trim (mark ++ rest) := by
  cases mark with
  | nil => exact List.nil_prefix
  | cons d mark =>
    have start : (d :: mark ++ rest).dropWhile isBlank = d :: mark ++ rest :=
      List.dropWhile_cons_of_neg (by simp [first d rfl])
    rw [trim_eq, start, rdropWhile_append]
    split
    · next blank =>
      rw [List.rdropWhile_eq_nil_iff] at blank
      have last := kept.resolve_right (by
        rintro ⟨c, inside, other⟩
        rw [blank c inside] at other
        contradiction)
      have whole : (d :: mark).rdropWhile isBlank = d :: mark := by
        rw [List.rdropWhile_eq_self_iff]
        intro filled
        simp [last _ (List.getLast?_eq_some_getLast filled)]
      exact ⟨[], by rw [whole, List.append_nil]⟩
    · exact List.prefix_append _ _

/-- Trimming leaves a text with this mark and rest without the mark in front. -/
def Cropped (mark rest : Text) : Prop :=
  (∃ c, mark.head? = some c ∧ isBlank c = true) ∨
    (∃ c, mark.getLast? = some c ∧ isBlank c = true) ∧ ∀ c ∈ rest, isBlank c = true

theorem prefix_trim_iff (blank : ∀ c ∈ s, isBlank c = true) :
    mark <+: trim (s ++ mark ++ rest) ↔ ¬ Cropped mark rest := by
  rw [List.append_assoc, trim_blank_append blank]
  constructor
  · rintro found (⟨c, first, padded⟩ | ⟨⟨c, last, padded⟩, behind⟩)
    · simp [isBlank_head_of_prefix_trim found first] at padded
    · rw [trim_append_blank behind] at found
      have ends := trim_eq_self_iff.mp (trim_eq_self_of_kept found)
      simp [ends.2 c last] at padded
  · intro kept
    have first : ∀ c, mark.head? = some c → isBlank c = false := by
      intro c start
      rw [← Bool.not_eq_true]
      exact fun padded => kept (Or.inl ⟨c, start, padded⟩)
    apply prefix_trim first
    by_cases last : ∃ c, mark.getLast? = some c ∧ isBlank c = true
    · have behind : ¬ ∀ c ∈ rest, isBlank c = true := fun behind => kept (Or.inr ⟨last, behind⟩)
      exact Or.inr (by simpa using behind)
    · exact Or.inl (by simpa using last)

/-- A mark is left in front of whatever follows it exactly if it has no blanks around it. -/
theorem trim_eq_self_iff_not_cropped : trim mark = mark ↔ ∀ rest, ¬ Cropped mark rest := by
  constructor
  · intro whole rest
    obtain ⟨first, last⟩ := trim_eq_self_iff.mp whole
    rintro (⟨c, start, padded⟩ | ⟨⟨c, final, padded⟩, _⟩)
    · simp [first c start] at padded
    · simp [last c final] at padded
  · intro kept
    have found : mark <+: trim ([] ++ mark ++ []) := (prefix_trim_iff (by simp)).mpr (kept [])
    rw [List.nil_append, List.append_nil] at found
    exact trim_eq_self_of_kept found

end MethodLines.Text
