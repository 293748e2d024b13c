import Mathlib.Data.List.Forall2
import MethodLines.Proofs.Json.Numbers
import MethodLines.Proofs.Json.Strings

/-! The texts of JSON values, with white space wherever it may stand. A text is read as it should
be if its parts are; so every value can be read, and passed over, whatever it is made of. The
fuel that the reader gives itself is enough for every text. -/
namespace MethodLines.Json

variable {c : Char} {t inside rest space part : Text} {parts items : List Text}

abbrev Blank := {space : Text // ∀ c ∈ space, isSpace c = true}

/-- The parts of a list that follow another one, each behind a comma. -/
inductive Continued : List Text → Text → Prop where
  | nil (space : Blank) : Continued [] space.val
  | cons {part t : Text} {parts : List Text} (before after : Blank) : Continued parts t →
      Continued (part :: parts) (before.val ++ ',' :: (after.val ++ (part ++ t)))

inductive Listed : List Text → Text → Prop where
  | nil (space : Blank) : Listed [] space.val
  | cons {part t : Text} {parts : List Text} (space : Blank) : Continued parts t →
      Listed (part :: parts) (space.val ++ (part ++ t))

def ArrayText (items : List Text) (t : Text) : Prop :=
  ∃ inside, Listed items inside ∧ t = '[' :: (inside ++ [']'])

def MemberText (m : Except Fault Text × Text) (t : Text) : Prop :=
  ∃ (key : Text) (before after : Blank), StringText m.1 key ∧
    t = key ++ (before.val ++ ':' :: (after.val ++ m.2))

def ObjectText (members : List (Except Fault Text × Text)) (t : Text) : Prop :=
  ∃ parts inside, List.Forall₂ MemberText members parts ∧ Listed parts inside ∧
    t = '\x7b' :: (inside ++ ['\x7d'])

/-- The texts of a JSON value. The keys of an object are any strings, and may be repeated. -/
inductive ValueText : Text → Prop where
  | word {t : Text} : t ∈ [("null" : Text), "true", "false"] → ValueText t
  | number {n : Number} {t : Text} : Draft.NumberText n t → ValueText t
  | string {value : Except Fault Text} {t : Text} : StringText value t → ValueText t
  | array {items : List Text} {t : Text} : ArrayText items t → (∀ item ∈ items, ValueText item) →
      ValueText t
  | object {members : List (Except Fault Text × Text)} {t : Text} : ObjectText members t →
      (∀ m ∈ members, ValueText m.2) → ValueText t

theorem skipSpace_append (blank : ∀ c ∈ space, isSpace c = true) (t : Text) :
    skipSpace (space ++ t) = skipSpace t := by
  rw [skipSpace, List.dropWhile_append_of_pos blank]
  rfl

theorem skipSpace_cons (ink : isSpace c = false) (t : Text) : skipSpace (c :: t) = c :: t := by
  simp [skipSpace, ink]

theorem isSpace_eq_false_of_isDigit (digit : c.isDigit = true) : isSpace c = false := by
  cases blank : isSpace c with
  | false => rfl
  | true =>
    simp only [isSpace, Bool.or_eq_true, decide_eq_true_eq] at blank
    rcases blank with ((rfl | rfl) | rfl) | rfl <;> contradiction

namespace Draft

variable {d : Draft} {drafts : List Draft} {fuel : Nat} {members : List (Except Fault Text × Text)}
  {values : List (Except Fault Text × Draft)}

/-- White space and a mark that is no part of a number end a number. -/
theorem delimited_append (blank : ∀ c ∈ space, isSpace c = true) (ended : Delimited rest) :
    Delimited (space ++ rest) := by
  intro c first
  cases space with
  | nil => exact ended c first
  | cons d space =>
    cases first
    have blank := blank c List.mem_cons_self
    simp only [isSpace, Bool.or_eq_true, decide_eq_true_eq] at blank
    rcases blank with ((rfl | rfl) | rfl) | rfl <;> decide

theorem delimited_cons (mark : c = ',' ∨ c = ']' ∨ c = '\x7d') : Delimited (c :: rest) := by
  intro d first
  cases first
  rcases mark with rfl | rfl | rfl <;> decide

theorem delimited_of_space (blank : ∀ c ∈ space, isSpace c = true) : Delimited space := by
  have ended : Delimited [] := by
    intro c first
    cases first
  simpa using delimited_append blank ended

theorem delimited_continued (continued : Continued parts t) (mark : c = ']' ∨ c = '\x7d')
    (rest : Text) : Delimited (t ++ c :: rest) := by
  cases continued with
  | nil space => exact delimited_append space.property (delimited_cons (Or.inr mark))
  | cons before after _ =>
    rw [List.append_assoc]
    exact delimited_append before.property (delimited_cons (Or.inl rfl))

/-- A text that is read as a draft, whatever follows that ends it, with three steps of fuel for
a character. -/
structure Reads (t : Text) (d : Draft) : Prop where
  start : ∃ c rest, t = c :: rest ∧ isSpace c = false ∧ c ≠ ']'
  read : ∀ fuel rest, 3 * t.length ≤ fuel → Delimited rest →
    Draft.read fuel (t ++ rest) = (d, some rest)

theorem Reads.positive (reads : Reads t d) : 0 < t.length := by
  obtain ⟨c, rest, rfl, _⟩ := reads.start
  exact Nat.succ_pos _

theorem Reads.skipSpace (reads : Reads t d) (rest : Text) :
    skipSpace (t ++ rest) = t ++ rest := by
  obtain ⟨c, t, rfl, ink, _⟩ := reads.start
  exact skipSpace_cons ink _

theorem read_append_space (blank : ∀ c ∈ space, isSpace c = true) (fuel : Nat) (t : Text) :
    read fuel (space ++ t) = read fuel t := by
  cases fuel with
  | zero => rfl
  | succ fuel => rw [read, read, skipSpace_append blank]

theorem readItems_close (space : Blank) (first : Bool) (rest : Text) :
    readItems (fuel + 1) first (space.val ++ ']' :: rest) = ([], none, some rest) := by
  rw [readItems, skipSpace_append space.property, skipSpace_cons (by decide)]
  rfl

theorem readItems_first (reads : Reads t d) (space : Blank) (rest : Text) :
    readItems (fuel + 1) true (space.val ++ (t ++ rest)) = readItem fuel (t ++ rest) := by
  obtain ⟨c, t, rfl, ink, opening⟩ := reads.start
  rw [readItems, skipSpace_append space.property, List.cons_append, skipSpace_cons ink]
  simp

/-- Behind a comma comes an item, and not the closing bracket. -/
theorem readItems_next (reads : Reads t d) (before after : Blank) (rest : Text) :
    readItems (fuel + 1) false (before.val ++ ',' :: (after.val ++ (t ++ rest))) =
      readItem fuel (t ++ rest) := by
  have item : MethodLines.Json.skipSpace (after.val ++ (t ++ rest)) = t ++ rest := by
    rw [skipSpace_append after.property, reads.skipSpace]
  obtain ⟨c, t, rfl, _, opening⟩ := reads.start
  rw [List.cons_append] at item
  rw [readItems, skipSpace_append before.property, skipSpace_cons (by decide)]
  simp [item, opening]

theorem readItem_of_read {drafts : List Draft} {stop : Option Fault} {tail : Text}
    {final : Option Text} (itemRead : read fuel t = (d, some tail))
    (itemsRead : readItems fuel false tail = (drafts, stop, final)) :
    readItem (fuel + 1) t = (d :: drafts, stop, final) := by
  rw [readItem, itemRead]
  simp only [itemsRead]

theorem readItems_continued (continued : Continued items t)
    (reads : List.Forall₂ Reads items drafts) (rest : Text) (enough : 3 * (t.length + 1) ≤ fuel) :
    readItems fuel false (t ++ ']' :: rest) = (drafts, none, some rest) := by
  induction continued generalizing drafts fuel with
  | nil space =>
    obtain ⟨fuel, rfl⟩ := Nat.exists_eq_add_of_le' (show 1 ≤ fuel by omega)
    cases reads
    exact readItems_close space false rest
  | @cons item t items before after continued ih =>
    obtain ⟨fuel, rfl⟩ := Nat.exists_eq_add_of_le' (show 2 ≤ fuel by omega)
    cases reads with
    | cons first others =>
      simp only [List.length_append, List.length_cons] at enough
      have value := first.read fuel _ (by omega)
        (delimited_continued continued (Or.inl rfl) rest)
      have behind := ih others (show 3 * (_ + 1) ≤ fuel by omega)
      simp only [List.append_assoc, List.cons_append]
      rw [readItems_next first before after]
      exact readItem_of_read value behind

theorem readItems_listed (listed : Listed items t) (reads : List.Forall₂ Reads items drafts)
    (rest : Text) (enough : 3 * (t.length + 1) ≤ fuel) :
    readItems fuel true (t ++ ']' :: rest) = (drafts, none, some rest) := by
  obtain ⟨fuel, rfl⟩ := Nat.exists_eq_add_of_le' (show 2 ≤ fuel by omega)
  cases listed with
  | nil space =>
    cases reads
    exact readItems_close space true rest
  | cons space continued =>
    cases reads with
    | cons first others =>
      simp only [List.length_append] at enough
      have positive := first.positive
      have value := first.read fuel _ (by omega)
        (delimited_continued continued (Or.inl rfl) rest)
      have behind := readItems_continued continued others rest (show 3 * (_ + 1) ≤ fuel by omega)
      simp only [List.append_assoc]
      rw [readItems_first first space]
      exact readItem_of_read value behind

/-- An array is read if its items are. -/
theorem reads_array (array : ArrayText items t) (reads : List.Forall₂ Reads items drafts) :
    Reads t (.array drafts none) := by
  obtain ⟨inside, listed, rfl⟩ := array
  refine ⟨⟨'[', _, rfl, by decide, by decide⟩, fun fuel rest enough _ => ?_⟩
  simp only [List.length_cons, List.length_append, List.length_nil] at enough
  obtain ⟨fuel, rfl⟩ := Nat.exists_eq_add_of_le' (show 1 ≤ fuel by omega)
  have itemsRead := readItems_listed listed reads rest (show 3 * (_ + 1) ≤ fuel by omega)
  rw [List.cons_append, List.append_assoc, read, skipSpace_cons (by decide)]
  simp only [List.singleton_append, itemsRead]

theorem readMembers_close (space : Blank) (first : Bool) (rest : Text) :
    readMembers (fuel + 1) first (space.val ++ '\x7d' :: rest) = ([], none, some rest) := by
  rw [readMembers, skipSpace_append space.property, skipSpace_cons (by decide)]
  rfl

theorem readMembers_first (space : Blank) (rest : Text) :
    readMembers (fuel + 1) true (space.val ++ '"' :: rest) = readMember fuel rest := by
  rw [readMembers, skipSpace_append space.property, skipSpace_cons (by decide)]
  simp

theorem readMembers_next (before after : Blank) (rest : Text) :
    readMembers (fuel + 1) false (before.val ++ ',' :: (after.val ++ '"' :: rest)) =
      readMember fuel rest := by
  have quote : MethodLines.Json.skipSpace (after.val ++ '"' :: rest) = '"' :: rest := by
    rw [skipSpace_append after.property, skipSpace_cons (by decide)]
  rw [readMembers, skipSpace_append before.property, skipSpace_cons (by decide)]
  simp [quote]

/-- A key is followed by its colon, and that by the value. -/
theorem readMember_of_read {m : Except Fault Text × Text} (member : MemberText m part)
    (reads : Reads m.2 d) : ∃ inside, part = '"' :: inside ∧
      ∀ fuel rest stop final, 3 * part.length ≤ fuel → Delimited rest →
        readMembers fuel false rest = (values, stop, final) →
          readMember (fuel + 1) (inside ++ rest) = ((m.1, d) :: values, stop, final) := by
  obtain ⟨key, before, after, written, rfl⟩ := member
  obtain ⟨inside, rfl, keyRead⟩ := written.draft
  refine ⟨inside ++ '"' :: (before.val ++ ':' :: (after.val ++ m.2)), by simp,
    fun fuel rest stop final enough ended behind => ?_⟩
  have shorter : m.2.length ≤ ('"' :: (inside ++ ['"']) ++
      (before.val ++ ':' :: (after.val ++ m.2))).length := by
    simp only [List.length_append, List.length_cons]
    omega
  have value := reads.read fuel rest (by omega) ended
  have colon : skipSpace (before.val ++ ':' :: (after.val ++ (m.2 ++ rest))) =
      ':' :: (after.val ++ (m.2 ++ rest)) := by
    rw [skipSpace_append before.property, skipSpace_cons (by decide)]
  simp only [List.append_assoc, List.cons_append]
  rw [readMember, keyRead]
  simp only [colon]
  rw [read_append_space after.property, value]
  simp only [behind]

/-- A member that is read as another, with the same key. -/
def MemberReads (m : Except Fault Text × Text) (v : Except Fault Text × Draft) : Prop :=
  m.1 = v.1 ∧ Reads m.2 v.2

theorem readMembers_continued (continued : Continued parts t)
    (written : List.Forall₂ MemberText members parts)
    (reads : List.Forall₂ MemberReads members values) (rest : Text)
    (enough : 3 * (t.length + 1) ≤ fuel) :
    readMembers fuel false (t ++ '\x7d' :: rest) = (values, none, some rest) := by
  induction continued generalizing members values fuel with
  | nil space =>
    obtain ⟨fuel, rfl⟩ := Nat.exists_eq_add_of_le' (show 1 ≤ fuel by omega)
    cases written
    cases reads
    exact readMembers_close space false rest
  | @cons part t parts before after continued ih =>
    obtain ⟨fuel, rfl⟩ := Nat.exists_eq_add_of_le' (show 2 ≤ fuel by omega)
    cases written with
    | cons member members =>
      cases reads with
      | @cons _ v _ _ first others =>
        obtain ⟨key, d⟩ := v
        obtain ⟨rfl, first⟩ := first
        obtain ⟨inside, rfl, memberRead⟩ := readMember_of_read member first
        simp only [List.length_append, List.length_cons] at enough
        have behind := ih members others (show 3 * (_ + 1) ≤ fuel by omega)
        have ended := delimited_continued continued (Or.inr rfl) rest
        simp only [List.append_assoc, List.cons_append]
        rw [readMembers_next before after]
        exact memberRead fuel _ _ _ (by rw [List.length_cons]; omega) ended behind

theorem readMembers_listed (listed : Listed parts t)
    (written : List.Forall₂ MemberText members parts)
    (reads : List.Forall₂ MemberReads members values) (rest : Text)
    (enough : 3 * (t.length + 1) ≤ fuel) :
    readMembers fuel true (t ++ '\x7d' :: rest) = (values, none, some rest) := by
  obtain ⟨fuel, rfl⟩ := Nat.exists_eq_add_of_le' (show 2 ≤ fuel by omega)
  cases listed with
  | nil space =>
    cases written
    cases reads
    exact readMembers_close space true rest
  | cons space continued =>
    cases written with
    | cons member members =>
      cases reads with
      | @cons _ v _ _ first others =>
        obtain ⟨key, d⟩ := v
        obtain ⟨rfl, first⟩ := first
        obtain ⟨inside, rfl, memberRead⟩ := readMember_of_read member first
        simp only [List.length_append, List.length_cons] at enough
        have behind := readMembers_continued continued members others rest
          (show 3 * (_ + 1) ≤ fuel by omega)
        have ended := delimited_continued continued (Or.inr rfl) rest
        simp only [List.append_assoc, List.cons_append]
        rw [readMembers_first space]
        exact memberRead fuel _ _ _ (by rw [List.length_cons]; omega) ended behind

/-- An object is read if its values are. -/
theorem reads_object (object : ObjectText members t)
    (reads : List.Forall₂ MemberReads members values) : Reads t (.object values none) := by
  obtain ⟨parts, inside, written, listed, rfl⟩ := object
  refine ⟨⟨'\x7b', _, rfl, by decide, by decide⟩, fun fuel rest enough _ => ?_⟩
  simp only [List.length_cons, List.length_append, List.length_nil] at enough
  obtain ⟨fuel, rfl⟩ := Nat.exists_eq_add_of_le' (show 1 ≤ fuel by omega)
  have membersRead := readMembers_listed listed written reads rest
    (show 3 * (_ + 1) ≤ fuel by omega)
  rw [List.cons_append, List.append_assoc, read, skipSpace_cons (by decide)]
  simp only [List.singleton_append, membersRead]

theorem reads_string {value : Except Fault Text} (written : StringText value t) :
    Reads t (.string value) := by
  obtain ⟨inside, rfl, scanned⟩ := written.draft
  refine ⟨⟨'"', _, rfl, by decide, by decide⟩, fun fuel rest enough _ => ?_⟩
  rw [List.length_cons] at enough
  obtain ⟨fuel, rfl⟩ := Nat.exists_eq_add_of_le' (show 1 ≤ fuel by omega)
  rw [List.cons_append, List.append_assoc, read, skipSpace_cons (by decide)]
  exact scanned rest

theorem read_digit (digit : c.isDigit = true) (t : Text) :
    read (fuel + 1) (c :: t) = readNumber false (c :: t) := by
  rw [read, skipSpace_cons (isSpace_eq_false_of_isDigit digit)]
  split
  all_goals rename_i start
  all_goals cases start
  case h_9 => rw [if_pos digit]
  all_goals contradiction

theorem reads_number {n : Number} (written : NumberText n t) : Reads t (.number n) := by
  rcases written.read with ⟨unsigned, rfl, numberRead⟩ | ⟨c, digits, rfl, digit, numberRead⟩
  · refine ⟨⟨'-', _, rfl, by decide, by decide⟩, fun fuel rest enough ended => ?_⟩
    rw [List.length_cons] at enough
    obtain ⟨fuel, rfl⟩ := Nat.exists_eq_add_of_le' (show 1 ≤ fuel by omega)
    rw [List.cons_append, read, skipSpace_cons (by decide)]
    exact numberRead rest ended
  · have opening : c ≠ ']' := by
      rintro rfl
      contradiction
    have ink := isSpace_eq_false_of_isDigit digit
    refine ⟨⟨c, _, rfl, ink, opening⟩, fun fuel rest enough ended => ?_⟩
    rw [List.length_cons] at enough
    obtain ⟨fuel, rfl⟩ := Nat.exists_eq_add_of_le' (show 1 ≤ fuel by omega)
    rw [List.cons_append, read_digit digit]
    exact numberRead rest ended

theorem reads_null : Reads "null" .null := by
  refine ⟨⟨'n', _, rfl, by decide, by decide⟩, fun fuel rest enough _ => ?_⟩
  obtain ⟨fuel, rfl⟩ := Nat.exists_eq_add_of_le' (Nat.le_trans (show 1 ≤ _ by decide) enough)
  rfl

theorem reads_true : Reads "true" (.bool true) := by
  refine ⟨⟨'t', _, rfl, by decide, by decide⟩, fun fuel rest enough _ => ?_⟩
  obtain ⟨fuel, rfl⟩ := Nat.exists_eq_add_of_le' (Nat.le_trans (show 1 ≤ _ by decide) enough)
  rfl

theorem reads_false : Reads "false" (.bool false) := by
  refine ⟨⟨'f', _, rfl, by decide, by decide⟩, fun fuel rest enough _ => ?_⟩
  obtain ⟨fuel, rfl⟩ := Nat.exists_eq_add_of_le' (Nat.le_trans (show 1 ≤ _ by decide) enough)
  rfl

theorem skipItems_eq_ok (passed : ∀ d ∈ drafts, d.skip = .ok ()) :
    skipItems drafts none = .ok () := by
  induction drafts with
  | nil => rw [skipItems]
  | cons d drafts ih =>
    obtain ⟨first, others⟩ := List.forall_mem_cons.mp passed
    rw [skipItems, first]
    exact ih others

theorem skipMembers_eq_ok (passed : ∀ v ∈ values, v.2.skip = .ok ()) :
    skipMembers values none = .ok () := by
  induction values with
  | nil => rw [skipMembers]
  | cons v values ih =>
    obtain ⟨first, others⟩ := List.forall_mem_cons.mp passed
    rw [skipMembers, first]
    exact ih others

/-- What a text by itself is read as. -/
def draft (t : Text) : Draft := (ofText t).1

/-- White space around a text does not matter to how it is read. -/
theorem Reads.ofText (reads : Reads t d) (before after : Blank) :
    ofText (before.val ++ (t ++ after.val)) = (d, some after.val) := by
  rw [Draft.ofText, read_append_space before.property]
  refine reads.read _ _ ?_ (delimited_of_space after.property)
  simp only [List.length_append]
  omega

theorem Reads.draft_eq (reads : Reads t d) : draft t = d := by
  have whole := reads.ofText ⟨[], by simp⟩ ⟨[], by simp⟩
  rw [List.nil_append, List.append_nil] at whole
  rw [draft, whole]

theorem reads_items (reads : ∀ item ∈ items, Reads item (draft item)) :
    List.Forall₂ Reads items (items.map draft) := by
  rw [List.forall₂_map_right_iff, List.forall₂_same]
  exact reads

theorem reads_members (reads : ∀ m ∈ members, Reads m.2 (draft m.2)) :
    List.Forall₂ MemberReads members (members.map fun m => (m.1, draft m.2)) := by
  rw [List.forall₂_map_right_iff, List.forall₂_same]
  exact fun m member => ⟨rfl, reads m member⟩

theorem Reads.readable (reads : Reads t d) (passed : d.skip = .ok ()) :
    Reads t (draft t) ∧ (draft t).skip = .ok () := by
  rw [reads.draft_eq]
  exact ⟨reads, passed⟩

/-- Every value is read, and can be passed over. -/
theorem reads_value (value : ValueText t) : Reads t (draft t) ∧ (draft t).skip = .ok () := by
  induction value with
  | word known =>
    simp only [List.mem_cons, List.not_mem_nil, or_false] at known
    rcases known with rfl | rfl | rfl
    · exact reads_null.readable rfl
    · exact reads_true.readable rfl
    · exact reads_false.readable rfl
  | number written => exact (reads_number written).readable rfl
  | string written => exact (reads_string written).readable rfl
  | array array _ ih =>
    refine (reads_array array (reads_items fun item listed => (ih item listed).1)).readable ?_
    rw [skip, skipItems_eq_ok]
    intro d member
    obtain ⟨item, listed, rfl⟩ := List.mem_map.mp member
    exact (ih item listed).2
  | object object _ ih =>
    refine (reads_object object (reads_members fun m listed => (ih m listed).1)).readable ?_
    rw [skip, skipMembers_eq_ok]
    intro v member
    obtain ⟨m, listed, rfl⟩ := List.mem_map.mp member
    exact (ih m listed).2

end Draft
end MethodLines.Json
