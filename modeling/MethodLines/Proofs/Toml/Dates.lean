import MethodLines.Proofs.Toml.Numbers

/-! The texts of TOML dates and times, and of both together. -/
namespace MethodLines.Toml

variable {count n : Nat} {ds : List Nat} {c : Char} {t u : Text}

def Padded (count n : Nat) (t : Text) : Prop :=
  ∃ ds, Numeral 10 ds t ∧ ds.length = count ∧ valueOf 10 ds = n

def monthLengths : List Nat := [31, 28, 31, 30, 31, 30, 31, 31, 30, 31, 30, 31]

inductive CalendarDay (year : Nat) : Nat → Nat → Prop where
  | usual {month length day : Nat} : monthLengths[month]? = some length → 1 ≤ day →
      day ≤ length → CalendarDay year (month + 1) day
  | leap : 4 ∣ year → (100 ∣ year → 400 ∣ year) → CalendarDay year 2 29

inductive DateText : Text → Prop where
  | date {year month day : Nat} {y m d : Text} : Padded 4 year y → Padded 2 month m →
      Padded 2 day d → CalendarDay year month day → DateText (y ++ '-' :: (m ++ '-' :: d))

inductive ClockText : Text → Prop where
  | clock {hour minute : Nat} {h m : Text} : Padded 2 hour h → Padded 2 minute m → hour < 24 →
      minute < 60 → ClockText (h ++ ':' :: m)

/-- Parts of a second, or none. -/
inductive PartText : Text → Prop where
  | none : PartText []
  | some {ds : List Nat} {t : Text} : Numeral 10 ds t → ds ≠ [] → PartText ('.' :: t)

inductive TimeText : Text → Prop where
  | minutes {t : Text} : ClockText t → TimeText t
  | seconds {second : Nat} {t s p : Text} : ClockText t → Padded 2 second s → second ≤ 60 →
      PartText p → TimeText (t ++ ':' :: (s ++ p))

/-- A distance from universal time, or none. -/
inductive OffsetText : Text → Prop where
  | none : OffsetText []
  | universal {mark : Char} : mark ∈ ['Z', 'z'] → OffsetText [mark]
  | clock {sign : Char} {t : Text} : sign ∈ ['+', '-'] → ClockText t → OffsetText (sign :: t)

inductive DatetimeText : Text → Prop where
  | date {t : Text} : DateText t → DatetimeText t
  | time {t : Text} : TimeText t → DatetimeText t
  | both {mark : Char} {d t o : Text} : DateText d → mark ∈ ['T', 't', ' '] → TimeText t →
      OffsetText o → DatetimeText (d ++ mark :: (t ++ o))

namespace Padded

theorem digits (ds : List Nat) (small : ∀ d ∈ ds, d < 10) :
    Padded ds.length (valueOf 10 ds) (ds.map Nat.digitChar) :=
  ⟨ds, numeral_digitChar ds small, rfl, rfl⟩

theorem length (padded : Padded count n t) : t.length = count := by
  obtain ⟨ds, digits, length, _⟩ := padded
  rw [length_numeral digits, length]

theorem all (padded : Padded count n t) {p : Char → Bool}
    (digits : ∀ d c, DigitChar 10 d c → p c = true) : ∀ c ∈ t, p c = true := by
  obtain ⟨ds, written, _⟩ := padded
  exact all_numeral written digits

theorem number? (padded : Padded count n t) (u : Text) :
    number? count (t ++ u) = some (n, u) := by
  have digits := List.all_eq_true.mpr (padded.all fun _ _ digit => digit.isDigit)
  have length := padded.length
  obtain ⟨ds, written, _, value⟩ := padded
  have front : (t ++ u).take count = t := by rw [← length, List.take_left]
  have behind : (t ++ u).drop count = u := by rw [← length, List.drop_left]
  rw [Toml.number?, front, behind, if_pos ⟨length, digits⟩, valueIn_eq (by decide) written, value]

end Padded

theorem CalendarDay.daysIn {year month day : Nat} (known : CalendarDay year month day) :
    1 ≤ month ∧ month ≤ 12 ∧ 1 ≤ day ∧ day ≤ daysIn year month := by
  cases known with
  | @usual month length _ found positive small =>
    have bound : month < 12 := (List.getElem?_eq_some_iff.mp found).1
    refine ⟨by omega, bound, positive, Nat.le_trans small ?_⟩
    unfold Toml.daysIn
    by_cases february : month = 1
    · subst february
      cases found
      split <;> split <;> omega
    · have others : ∀ month < 12, month ≠ 1 → monthLengths[month]? =
          some (if month + 1 = 4 ∨ month + 1 = 6 ∨ month + 1 = 9 ∨ month + 1 = 11 then 30
            else 31) := by decide
      rw [others month bound february] at found
      rw [if_neg (by omega), Option.some.inj found]
  | leap four hundred =>
    refine ⟨by decide, by decide, by decide, ?_⟩
    rw [Toml.daysIn, if_pos rfl, if_pos]
    omega

theorem DateText.date? (written : DateText t) (u : Text) : date? (t ++ u) = some u := by
  cases written with
  | @date year month day y m d padded padded' padded'' known =>
    have whole : y ++ '-' :: (m ++ '-' :: d) ++ u = y ++ '-' :: (m ++ '-' :: (d ++ u)) := by simp
    simp only [whole, Toml.date?, padded.number?, padded'.number?, padded''.number?,
      Option.bind_eq_bind, Option.bind_some]
    exact if_pos known.daysIn

theorem ClockText.clock? (written : ClockText t) (u : Text) : clock? (t ++ u) = some u := by
  cases written with
  | @clock hour minute h m padded padded' hours minutes =>
    have whole : h ++ ':' :: m ++ u = h ++ ':' :: (m ++ u) := by simp
    simp only [whole, Toml.clock?, padded.number?, padded'.number?, Option.bind_eq_bind,
      Option.bind_some]
    exact if_pos ⟨Nat.le_of_lt_succ hours, Nat.le_of_lt_succ minutes⟩

theorem TimeText.time? (written : TimeText t)
    (ended : ∀ c ∈ u.head?, c ∉ [':', '.'] ∧ c.isDigit = false) : time? (t ++ u) = some u := by
  have mark : ∀ c t', c ∈ [':', '.'] → u = c :: t' → False := by
    rintro c t' known rfl
    exact (ended c rfl).1 known
  cases written with
  | minutes clock =>
    rw [Toml.time?, clock.clock?, Option.bind_eq_bind, Option.bind_some]
    split
    · exact absurd rfl (mark ':' _ (by simp))
    · rfl
  | @seconds second t s p clock padded bound part =>
    have whole : t ++ ':' :: (s ++ p) ++ u = t ++ ':' :: (s ++ (p ++ u)) := by simp
    rw [whole, Toml.time?, clock.clock?]
    show (number? 2 (s ++ (p ++ u)) >>= _) = _
    rw [padded.number?]
    show (if 60 < second then none else _) = _
    rw [if_neg (Nat.not_lt_of_le bound)]
    cases part with
    | none =>
      rw [List.nil_append]
      split
      · exact absurd rfl (mark '.' _ (by simp))
      · rfl
    | @some ds f written filled =>
      have digits := all_numeral written fun _ _ digit => digit.isDigit
      have run := run_append digits fun c first => (ended c first).2
      have some : f ≠ [] := by
        rintro rfl
        cases written
        exact filled rfl
      show (if (f ++ u).takeWhile Char.isDigit |>.isEmpty then Option.none
        else Option.some ((f ++ u).dropWhile Char.isDigit)) = _
      rw [run.1, run.2, if_neg (by simpa using some)]

theorem OffsetText.isOffset (written : OffsetText t) : isOffset t = true := by
  cases written with
  | none => rfl
  | universal known =>
    simp only [List.mem_cons, List.not_mem_nil, or_false] at known
    rcases known with rfl | rfl <;> rfl
  | @clock sign t known clock =>
    have read := clock.clock? []
    rw [List.append_nil] at read
    simp only [List.mem_cons, List.not_mem_nil, or_false] at known
    rcases known with rfl | rfl
    · exact decide_eq_true read
    · exact decide_eq_true read

theorem OffsetText.head (written : OffsetText t) :
    ∀ c ∈ t.head?, c ∉ [':', '.'] ∧ c.isDigit = false := by
  cases written with
  | none => simp
  | universal known | clock known =>
    simp only [List.mem_cons, List.not_mem_nil, or_false] at known
    rcases known with rfl | rfl
    · exact fun c first => Option.some.inj first ▸ by decide
    · exact fun c first => Option.some.inj first ▸ by decide

/-- Hours are followed by a colon, where the year of a date goes on. -/
theorem ClockText.date? (written : ClockText t) (u : Text) : date? (t ++ u) = none := by
  cases written with
  | @clock hour minute h m padded _ _ _ =>
    match h, padded.length with
    | [a, b], _ => simp [Toml.date?, Toml.number?]

theorem TimeText.clock (written : TimeText t) : ∃ c u, t = c ++ u ∧ ClockText c := by
  cases written with
  | minutes clock => exact ⟨t, [], (List.append_nil t).symm, clock⟩
  | seconds clock => exact ⟨_, _, rfl, clock⟩

theorem isDatetime_eq (written : DatetimeText t) : isDatetime t = true := by
  cases written with
  | date date =>
    have read := date.date? []
    rw [List.append_nil] at read
    rw [isDatetime, read]
  | time time =>
    have read := time.time? (u := []) (by simp)
    rw [List.append_nil] at read
    obtain ⟨c, u, rfl, clock⟩ := time.clock
    rw [isDatetime, clock.date?]
    exact decide_eq_true read
  | @both mark d t o date known time offset =>
    have read := time.time? offset.head
    simp only [List.mem_cons, List.not_mem_nil, or_false] at known
    rw [isDatetime, date.date?]
    rcases known with rfl | rfl | rfl
    · simp only [read, offset.isOffset]
    · simp only [read, offset.isOffset]
    · simp only [read, offset.isOffset]

/-- Digits, and a mark that is none of a number. -/
theorem DatetimeText.start (written : DatetimeText t) : ∃ ds digits mark u,
    t = digits ++ mark :: u ∧ Numeral 10 ds digits ∧ 2 ≤ ds.length ∧ (mark = '-' ∨ mark = ':') := by
  have ofDate : ∀ {d : Text}, DateText d → ∀ u, ∃ ds digits mark u', d ++ u = digits ++ mark :: u' ∧
      Numeral 10 ds digits ∧ 2 ≤ ds.length ∧ (mark = '-' ∨ mark = ':') := by
    rintro _ ⟨⟨ds, digits, long, _⟩, _, _, _⟩ u
    exact ⟨ds, _, '-', _, List.append_assoc _ _ _, digits, by omega, .inl rfl⟩
  cases written with
  | date date =>
    have start := ofDate date []
    rwa [List.append_nil] at start
  | time time =>
    obtain ⟨_, u, rfl, ⟨⟨ds, digits, long, _⟩, _, _, _⟩⟩ := time.clock
    exact ⟨ds, _, ':', _, List.append_assoc _ _ _, digits, by omega, .inr rfl⟩
  | both date => exact ofDate date _

theorem numberless (digits : Numeral 10 ds t) (long : 2 ≤ ds.length) (mark : c = '-' ∨ c = ':')
    (u : Text) : integer? (t ++ c :: u) = none ∧ float? (t ++ c :: u) = none := by
  have all := all_numeral digits fun _ _ digit => digit.isDigit
  have runs := all_numeral digits fun _ _ => isRunChar_digit
  have ended : ∀ d ∈ (c :: u).head?, d.isDigit = false ∧ isRunChar d = false := by
    rintro d ⟨⟩
    rcases mark with rfl | rfl <;> decide
  cases digits with
  | nil => cases long
  | @cons d a ds t first others =>
    cases others with
    | nil => simp at long
    | @cons e b ds t second others =>
    have letter : a ≠ 'i' ∧ a ≠ 'n' := ⟨first.ne (by decide), first.ne (by decide)⟩
    constructor
    · rw [integer?_of_second]
      · unfold decimalInteger?
        have unsigned := unsigned_digit .none first (b :: t ++ c :: u)
        rw [List.nil_append] at unsigned
        rw [List.cons_append, unsigned]
        dsimp only
        rw [← List.cons_append, (run_append all fun d first => (ended d first).1).2]
        rcases mark with rfl | rfl <;> rfl
      · rintro d' u' equal
        cases equal
        simp only [List.mem_cons, List.not_mem_nil, or_false, not_or]
        exact ⟨second.ne (by decide), second.ne (by decide), second.ne (by decide)⟩
    · unfold float?
      have unsigned := unsigned_digit .none first (b :: t ++ c :: u)
      rw [List.nil_append] at unsigned
      rw [List.cons_append, unsigned]
      dsimp only
      rw [if_neg (by simp [letter]), ← List.cons_append,
        (run_append runs fun d first => (ended d first).2).2]
      split
      · cases wholeDigits? _ with
        | none => rfl
        | some => rcases mark with rfl | rfl <;> rfl
      · rfl

theorem Padded.isPlainChar (padded : Padded count n t) : ∀ c ∈ t, isPlainChar c = true :=
  padded.all fun _ _ digit => digit.isPlainChar (by decide)

theorem DateText.isPlainChar (written : DateText t) : ∀ c ∈ t, isPlainChar c = true := by
  cases written with
  | date year month day =>
    exact List.forall_mem_append.mpr ⟨year.isPlainChar, List.forall_mem_cons.mpr ⟨by decide,
      List.forall_mem_append.mpr ⟨month.isPlainChar, List.forall_mem_cons.mpr ⟨by decide,
        day.isPlainChar⟩⟩⟩⟩

theorem ClockText.isPlainChar (written : ClockText t) : ∀ c ∈ t, isPlainChar c = true := by
  cases written with
  | clock hour minute =>
    exact List.forall_mem_append.mpr ⟨hour.isPlainChar, List.forall_mem_cons.mpr ⟨by decide,
      minute.isPlainChar⟩⟩

theorem TimeText.isPlainChar (written : TimeText t) : ∀ c ∈ t, isPlainChar c = true := by
  cases written with
  | minutes clock => exact clock.isPlainChar
  | @seconds second t s p clock padded _ part =>
    have parts : ∀ c ∈ p, Toml.isPlainChar c = true := by
      cases part with
      | none => simp
      | some digits =>
        exact List.forall_mem_cons.mpr ⟨by decide,
          all_numeral digits fun _ _ digit => digit.isPlainChar (by decide)⟩
    exact List.forall_mem_append.mpr ⟨clock.isPlainChar, List.forall_mem_cons.mpr ⟨by decide,
      List.forall_mem_append.mpr ⟨padded.isPlainChar, parts⟩⟩⟩

theorem OffsetText.isPlainChar (written : OffsetText t) : ∀ c ∈ t, isPlainChar c = true := by
  cases written with
  | none => simp
  | universal known =>
    simp only [List.mem_cons, List.not_mem_nil, or_false] at known
    rcases known with rfl | rfl <;> decide
  | clock known clock =>
    refine List.forall_mem_cons.mpr ⟨?_, clock.isPlainChar⟩
    simp only [List.mem_cons, List.not_mem_nil, or_false] at known
    rcases known with rfl | rfl <;> decide

end MethodLines.Toml
