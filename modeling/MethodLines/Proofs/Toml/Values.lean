import MethodLines.Proofs.Toml.Keys
import MethodLines.Proofs.Toml.Scalars

/-! The texts of TOML values, arrays and inline tables included. Each is read as its value, and can
be passed over. -/
namespace MethodLines.Toml

variable {value : Value → Text → Prop} {depth : Nat} {c : Char} {path : List Text}
variable {key lead t u rest : Text} {v : Value} {items : List Value} {before after : Entries}

/-- A value comes under a dotted key that is new. Tables that other dotted keys made can be added
to. -/
inductive Added : List Text → Text → Value → Entries → Entries → Prop where
  | last {key : Text} {v : Value} {entries : Entries} : key ∉ entries.map Prod.fst →
      Added [] key v entries (entries ++ [(key, v)])
  | fresh {path : List Text} {first key : Text} {v : Value} {entries inner : Entries} :
      first ∉ entries.map Prod.fst → Added path key v [] inner →
      Added (first :: path) key v entries (entries ++ [(first, .table .dotted inner)])
  | inside {path : List Text} {first key : Text} {v : Value} {front behind inner inner' : Entries} :
      first ∉ (front ++ behind).map Prod.fst → Added path key v inner inner' →
      Added (first :: path) key v (front ++ (first, .table .dotted inner) :: behind)
        (front ++ (first, .table .dotted inner') :: behind)

/-- Items of an array, its closing bracket included. A comma may follow the last one. -/
inductive ItemsText (value : Value → Text → Prop) : List Value → Text → Prop where
  | close {l : Text} : Layout l → ItemsText value [] (l ++ [']'])
  | last {v : Value} {l t l' : Text} : Layout l → value v t → Layout l' →
      ItemsText value [v] (l ++ (t ++ (l' ++ [']'])))
  | cons {v : Value} {items : List Value} {l t l' u : Text} : Layout l → value v t → Layout l' →
      ItemsText value items u → ItemsText value (v :: items) (l ++ (t ++ (l' ++ ',' :: u)))

/-- An entry of an inline table, and the entries before and after it. -/
inductive EntryText (value : Value → Text → Prop) (before after : Entries) : Text → Prop where
  | entry {path : List Text} {key k l l' t : Text} {v : Value} : PathText path key k →
      path.length < 80 → Layout l → Layout l' → value v t → Added path key v before after →
      EntryText value before after (k ++ (l ++ '=' :: (l' ++ t)))

inductive EntriesText (value : Value → Text → Prop) : Entries → Entries → Text → Prop where
  | close {entries : Entries} {l : Text} : Layout l →
      EntriesText value entries entries (l ++ ['\x7d'])
  | last {before after : Entries} {l t l' : Text} : Layout l → EntryText value before after t →
      Layout l' → EntriesText value before after (l ++ (t ++ (l' ++ ['\x7d'])))
  | cons {before between after : Entries} {l t l' u : Text} : Layout l →
      EntryText value before between t → Layout l' → EntriesText value between after u →
      EntriesText value before after (l ++ (t ++ (l' ++ ',' :: u)))

inductive SimpleText : Value → Text → Prop where
  | string {s t : Text} : StringText s t → SimpleText (.string s) t
  | scalar {v : Value} {t : Text} : ScalarText v t → SimpleText v t

inductive NestedText (value : Value → Text → Prop) : Value → Text → Prop where
  | simple {v : Value} {t : Text} : SimpleText v t → NestedText value v t
  | array {items : List Value} {t : Text} : ItemsText value items t →
      NestedText value (.array false items) ('[' :: t)
  | table {entries : Entries} {t : Text} : EntriesText value [] entries t →
      NestedText value (.table .inline entries) ('\x7b' :: t)

/-- The texts of values with so many levels of arrays and inline tables. -/
def ValueText : Nat → Value → Text → Prop
  | 0 => SimpleText
  | depth + 1 => NestedText (ValueText depth)

theorem lookup_eq_none (new : key ∉ before.map Prod.fst) : before.lookup key = none := by
  rw [List.lookup_eq_none_iff]
  intro e listed
  rw [bne_iff_ne]
  rintro rfl
  exact new (List.mem_map_of_mem listed)

theorem lookup_between (new : key ∉ before.map Prod.fst) :
    (before ++ (key, v) :: after).lookup key = some v := by
  rw [List.lookup_append, lookup_eq_none new, List.lookup_cons_self]
  rfl

theorem Entries.replace_between (new : key ∉ (before ++ after).map Prod.fst) (w : Value) :
    Entries.replace key w (before ++ (key, v) :: after) = before ++ (key, w) :: after := by
  rw [List.map_append, List.mem_append, not_or] at new
  have kept : ∀ entries : Entries, key ∉ entries.map Prod.fst →
      entries.map (fun e => if e.1 = key then (key, w) else e) = entries := by
    intro entries new
    refine (List.map_congr_left fun e listed => if_neg ?_).trans (List.map_id entries)
    rintro rfl
    exact new (List.mem_map_of_mem listed)
  rw [Entries.replace, List.map_append, List.map_cons, if_pos rfl, kept _ new.1, kept _ new.2]

/-- Only dotted keys reach the tables that they make. -/
theorem alter_added {dotted : Bool} {origin : Origin} (added : Added path key v before after)
    (led : path = [] → (dotted ↔ origin = .dotted)) (leads : path ≠ [] → dotted = true) :
    Entries.alter true (Entries.add dotted key v) path origin before = some after := by
  induction added generalizing origin with
  | last new =>
    rw [Entries.alter, Entries.add, lookup_eq_none new, if_pos ⟨led rfl, rfl⟩]
  | fresh new _ ih =>
    have dotted := leads (List.cons_ne_nil _ _)
    have inner := @ih .dotted (fun _ => by simp [dotted]) fun _ => dotted
    simp only [Entries.alter, lookup_eq_none new, if_true, inner, Option.bind_eq_bind,
      Option.bind_some]
    rfl
  | inside new _ ih =>
    have dotted := leads (List.cons_ne_nil _ _)
    have inner := @ih .dotted (fun _ => by simp [dotted]) fun _ => dotted
    have front := fun listed => new (List.map_append ▸ List.mem_append_left _ listed)
    rw [Entries.alter, lookup_between front]
    dsimp only
    rw [if_neg (by simp), inner]
    exact congrArg some (Entries.replace_between new _)

theorem addAt_added (added : Added path key v before after) :
    before.addAt path key v .inline = some after := by
  refine alter_added added ?_ ?_
  · rintro rfl
    simp
  · intro filled
    simp [filled]

theorem arePassableEntries_append (entries further : Entries) :
    Value.arePassableEntries (entries ++ further) =
      (Value.arePassableEntries entries && Value.arePassableEntries further) := by
  induction entries with
  | nil => rfl
  | cons e entries ih =>
    rw [List.cons_append, Value.arePassableEntries, Value.arePassableEntries, ih, Bool.and_assoc]

theorem Added.passable (added : Added path key v before after) (passable : v.isPassable = true)
    (others : Value.arePassableEntries before = true) :
    Value.arePassableEntries after = true := by
  induction added with
  | last => simp [arePassableEntries_append, Value.arePassableEntries, passable, others]
  | fresh _ _ ih =>
    simp [arePassableEntries_append, Value.arePassableEntries, Value.isPassable, others,
      ih passable rfl]
  | inside _ _ ih =>
    simp only [arePassableEntries_append, Value.arePassableEntries, Value.isPassable,
      Bool.and_eq_true] at others ⊢
    exact ⟨others.1, ih passable others.2.1, others.2.2⟩

/-- What marks the end of an item or an entry. -/
def endChars : Text := [',', ']', '\x7d']

theorem Behind.of_head (first : ∀ c ∈ rest.head?, c ∈ layoutChars ++ endChars)
    (second : ∀ u, rest = ' ' :: u → ∀ c ∈ u.head?, c ∈ layoutChars ++ endChars) :
    Behind rest := by
  have all : ∀ c ∈ layoutChars ++ endChars, isScalarChar c = false ∧ c.isDigit = false := by
    decide
  exact ⟨fun c start => (all c (first c start)).1,
    fun c u equal => (all c (second (c :: u) equal c rfl)).2⟩

theorem Layout.behind (layout : Layout lead) (ending : c ∈ endChars) (u : Text) :
    Behind (lead ++ c :: u) := by
  have head : ∀ {lead : Text}, Layout lead →
      ∀ d ∈ (lead ++ c :: u).head?, d ∈ layoutChars ++ endChars := by
    intro lead layout d start
    rcases layout.start d start with special | first
    · exact List.mem_append_left _ special
    · cases first
      exact List.mem_append_right _ ending
  refine .of_head (head layout) fun u' equal => ?_
  cases layout with
  | nil =>
    cases equal
    exact absurd ending (by decide)
  | blank _ layout =>
    cases equal
    exact head layout
  | lineEnd ended => rcases mem_lineEnds.mp ended with rfl | rfl <;> cases equal
  | comment => cases equal

/-- A text that is read as a value wherever it stands, and whose value can be passed over. -/
structure Legible (depth : Nat) (v : Value) (t : Text) : Prop where
  start : ∃ c t', t = c :: t' ∧ c ∉ ']' :: layoutChars
  read : ∀ fuel rest, t.length ≤ fuel → Behind rest →
    readValue fuel depth (t ++ rest) = some (v, rest)
  passable : v.isPassable = true

theorem Layout.skipped_to (layout : Layout lead) {ink : Char} (start : ink ∉ layoutChars)
    (u : Text) : skipLayout false (lead ++ ink :: u) = some (ink :: u) := by
  rw [layout.skipped, skipLayout_ink start]

theorem readItems_close {fuel : Nat} (skipped : skipLayout false t = some (']' :: rest)) :
    readItems (fuel + 1) depth t = some ([], rest) := by
  rw [readItems, skipped]
  rfl

theorem readItems_item {fuel : Nat} {next : Text} (skipped : skipLayout false t = some (c :: u))
    (other : c ≠ ']') (value : readValue fuel depth (c :: u) = some (v, next)) :
    (∀ rest, skipLayout false next = some (']' :: rest) →
      readItems (fuel + 1) depth t = some ([v], rest)) ∧
    ∀ further, skipLayout false next = some (',' :: further) →
      readItems (fuel + 1) depth t =
        (readItems fuel depth further).map fun r => (v :: r.1, r.2) := by
  have item : ∀ t', c :: u = ']' :: t' → False := by
    rintro t' equal
    cases equal
    exact other rfl
  simp only [readItems, skipped, value, Option.bind_eq_bind, Option.bind_some]
  constructor
  · intro rest ended
    rw [ended]
    rfl
  · intro further ended
    rw [ended]
    exact Option.map_eq_bind.symm

/-- An array is read item by item. Every item and what ends it take a step of fuel each. -/
theorem readItems_itemsText (legible : ∀ v t, value v t → Legible depth v t)
    (written : ItemsText value items t) : ∀ fuel rest, t.length ≤ fuel →
      readItems fuel depth (t ++ rest) = some (items, rest) := by
  induction written with
  | close layout =>
    intro fuel rest enough
    rw [List.length_append, List.length_singleton] at enough
    obtain ⟨fuel, rfl⟩ := Nat.exists_eq_add_one_of_ne_zero (show fuel ≠ 0 by omega)
    refine readItems_close ?_
    rw [List.append_assoc]
    exact layout.skipped_to (by decide) rest
  | @last v l t l' layout item layout' =>
    intro fuel rest enough
    obtain ⟨⟨c, t', start, ink⟩, read, _⟩ := legible v t item
    rw [List.mem_cons, not_or] at ink
    simp only [List.length_append, List.length_singleton] at enough
    obtain ⟨fuel, rfl⟩ := Nat.exists_eq_add_one_of_ne_zero (show fuel ≠ 0 by omega)
    have value := read fuel (l' ++ ']' :: rest) (by omega) (layout'.behind (by decide) rest)
    have whole : l ++ (t ++ (l' ++ [']'])) ++ rest = l ++ (t ++ (l' ++ ']' :: rest)) := by simp
    rw [whole]
    rw [start, List.cons_append] at value ⊢
    exact (readItems_item (layout.skipped_to ink.2 _) ink.1 value).1 rest
      (layout'.skipped_to (by decide) rest)
  | @cons v items l t l' u layout item layout' _ ih =>
    intro fuel rest enough
    obtain ⟨⟨c, t', start, ink⟩, read, _⟩ := legible v t item
    rw [List.mem_cons, not_or] at ink
    simp only [List.length_append, List.length_cons] at enough
    obtain ⟨fuel, rfl⟩ := Nat.exists_eq_add_one_of_ne_zero (show fuel ≠ 0 by omega)
    have value := read fuel (l' ++ ',' :: (u ++ rest)) (by omega)
      (layout'.behind (by decide) (u ++ rest))
    have further := ih fuel rest (by omega)
    have whole : l ++ (t ++ (l' ++ ',' :: u)) ++ rest = l ++ (t ++ (l' ++ ',' :: (u ++ rest))) := by
      simp
    rw [whole]
    rw [start, List.cons_append] at value ⊢
    rw [(readItems_item (layout.skipped_to ink.2 _) ink.1 value).2 _
      (layout'.skipped_to (by decide) _), further]
    rfl

/-- An entry of an inline table is read, up to what stands behind it. -/
structure EntryRead (fuel depth : Nat) (before after : Entries) (t rest : Text) : Prop where
  start : ∃ c t', t = c :: t' ∧ c ∉ '\x7d' :: layoutChars
  steps : ∃ path key sign inside first v, readPath t = some (path, key, sign) ∧
    skipLayout false sign = some ('=' :: inside) ∧ skipLayout false inside = some first ∧
    readValue fuel depth first = some (v, rest) ∧ before.addAt path key v .inline = some after

theorem EntryText.read (legible : ∀ v t, value v t → Legible depth v t)
    (written : EntryText value before after t) {fuel : Nat} (enough : t.length ≤ fuel)
    (behind : Behind rest) : EntryRead fuel depth before after (t ++ rest) rest := by
  cases written with
  | @entry path key k l l' t v dotted short layout layout' inner added =>
    obtain ⟨c, k', start, ink⟩ := dotted.start
    obtain ⟨⟨d, t', valueStart, valueInk⟩, read, _⟩ := legible v t inner
    have whole : k ++ (l ++ '=' :: (l' ++ t)) ++ rest = k ++ (l ++ '=' :: (l' ++ (t ++ rest))) := by
      simp
    simp only [List.length_append, List.length_cons] at enough
    have ended : ∀ c ∈ (l ++ '=' :: (l' ++ (t ++ rest))).head?, isBareKeyChar c = false := by
      intro c first
      have all : ∀ c ∈ layoutChars, isBareKeyChar c = false := by decide
      rcases layout.start c first with special | sign
      · exact all c special
      · cases sign
        decide
    have path := readKeys_pathText dotted short ended (layout.undotted (by decide))
    have value := read fuel rest (by omega) behind
    rw [whole]
    constructor
    · rw [start]
      refine ⟨c, _, rfl, fun listed => ink ?_⟩
      rw [List.mem_cons] at listed
      rcases listed with rfl | listed
      · simp
      · exact List.mem_append_right _ listed
    · refine ⟨_, _, _, l' ++ (t ++ rest), t ++ rest, v, path, ?_, ?_, value, addAt_added added⟩
      · rw [skipLayout_skipBlanks]
        exact layout.skipped_to (by decide) _
      · rw [valueStart]
        exact layout'.skipped_to (fun listed => valueInk (.tail _ listed)) _

theorem Layout.skipped_to_entry {fuel : Nat} (layout : Layout lead)
    (entry : EntryRead fuel depth before after t rest) :
    skipLayout false (lead ++ t) = some t := by
  obtain ⟨c, t', rfl, ink⟩ := entry.start
  exact layout.skipped_to (fun listed => ink (.tail _ listed)) t'

theorem readEntries_close {fuel : Nat} (skipped : skipLayout false t = some ('\x7d' :: rest)) :
    readEntries (fuel + 1) depth before t = some (before, rest) := by
  rw [readEntries, skipped]
  rfl

theorem readEntries_entry {fuel : Nat} {first next : Text}
    (skipped : skipLayout false t = some first)
    (entry : EntryRead fuel depth before after first next) :
    (∀ rest, skipLayout false next = some ('\x7d' :: rest) →
      readEntries (fuel + 1) depth before t = some (after, rest)) ∧
    ∀ further, skipLayout false next = some (',' :: further) →
      readEntries (fuel + 1) depth before t = readEntries fuel depth after further := by
  obtain ⟨⟨c, u, rfl, ink⟩, path, key, sign, inside, first, v, dotted, signed, started, value,
    added⟩ := entry
  have item : ∀ t', c :: u = '\x7d' :: t' → False := by
    rintro t' equal
    cases equal
    exact ink List.mem_cons_self
  simp only [readEntries, skipped, dotted, signed, started, value, added, Option.bind_eq_bind,
    Option.bind_some]
  constructor
  · intro rest ended
    rw [ended]
    rfl
  · intro further ended
    rw [ended]
    rfl

theorem readEntries_entriesText (legible : ∀ v t, value v t → Legible depth v t)
    (written : EntriesText value before after t) : ∀ fuel rest, t.length ≤ fuel →
      readEntries fuel depth before (t ++ rest) = some (after, rest) := by
  induction written with
  | close layout =>
    intro fuel rest enough
    rw [List.length_append, List.length_singleton] at enough
    obtain ⟨fuel, rfl⟩ := Nat.exists_eq_add_one_of_ne_zero (show fuel ≠ 0 by omega)
    refine readEntries_close ?_
    rw [List.append_assoc]
    exact layout.skipped_to (by decide) rest
  | @last before after l t l' layout written layout' =>
    intro fuel rest enough
    simp only [List.length_append, List.length_singleton] at enough
    obtain ⟨fuel, rfl⟩ := Nat.exists_eq_add_one_of_ne_zero (show fuel ≠ 0 by omega)
    have entry := written.read legible (show t.length ≤ fuel by omega)
      (layout'.behind (c := '\x7d') (by decide) rest)
    have whole : l ++ (t ++ (l' ++ ['\x7d'])) ++ rest = l ++ (t ++ (l' ++ '\x7d' :: rest)) := by
      simp
    rw [whole]
    exact (readEntries_entry (layout.skipped_to_entry entry) entry).1 rest
      (layout'.skipped_to (by decide) rest)
  | @cons before between after l t l' u layout written layout' _ ih =>
    intro fuel rest enough
    simp only [List.length_append, List.length_cons] at enough
    obtain ⟨fuel, rfl⟩ := Nat.exists_eq_add_one_of_ne_zero (show fuel ≠ 0 by omega)
    have entry := written.read legible (show t.length ≤ fuel by omega)
      (layout'.behind (c := ',') (by decide) (u ++ rest))
    have whole : l ++ (t ++ (l' ++ ',' :: u)) ++ rest = l ++ (t ++ (l' ++ ',' :: (u ++ rest))) := by
      simp
    rw [whole, (readEntries_entry (layout.skipped_to_entry entry) entry).2 _
      (layout'.skipped_to (by decide) _)]
    exact ih fuel rest (by omega)

theorem EntriesText.passable (legible : ∀ v t, value v t → Legible depth v t)
    (written : EntriesText value before after t)
    (others : Value.arePassableEntries before = true) :
    Value.arePassableEntries after = true := by
  have step : ∀ {before after : Entries} {t : Text}, EntryText value before after t →
      Value.arePassableEntries before = true → Value.arePassableEntries after = true := by
    rintro before after t ⟨_, _, _, _, inner, added⟩ others
    exact added.passable (legible _ _ inner).passable others
  induction written with
  | close => exact others
  | last _ entry => exact step entry others
  | cons _ entry _ _ ih => exact ih (step entry others)

theorem ItemsText.passable (legible : ∀ v t, value v t → Legible depth v t)
    (written : ItemsText value items t) : Value.arePassable items = true := by
  induction written with
  | close => rfl
  | last _ item => simp [Value.arePassable, (legible _ _ item).passable]
  | cons _ item _ _ ih => simp [Value.arePassable, (legible _ _ item).passable, ih]

theorem SimpleText.legible (written : SimpleText v t) : Legible depth v t := by
  cases written with
  | @string s t written =>
    obtain ⟨c, t', rfl, quote⟩ := written.start
    refine ⟨⟨c, t', rfl, ?_⟩, ?_, rfl⟩
    · rcases quote with rfl | rfl <;> decide
    · intro fuel rest enough behind
      obtain ⟨fuel, rfl⟩ := Nat.exists_eq_add_one_of_ne_zero
        (show fuel ≠ 0 by rw [List.length_cons] at enough; omega)
      have read : readString (c :: t' ++ rest) = some (s, rest) := by
        refine readString_stringText written fun c first => ?_
        have ended := behind.ended c first
        constructor <;> rintro rfl <;> cases ended
      have string : readValue (fuel + 1) depth (c :: (t' ++ rest)) =
          (readString (c :: (t' ++ rest))).map fun r => (.string r.1, r.2) := by
        rcases quote with rfl | rfl <;> rw [readValue]
      rw [List.cons_append] at read ⊢
      rw [string, read]
      rfl
  | scalar written =>
    obtain ⟨c, t', rfl, plain⟩ := written.start
    have other : c ∉ ['[', '\x7b', '"', '\'', ']'] ++ layoutChars := by
      have all : ∀ c ∈ ['[', '\x7b', '"', '\'', ']'] ++ layoutChars, isPlainChar c = false := by
        decide
      intro listed
      rw [all c listed] at plain
      cases plain
    refine ⟨⟨c, t', rfl, fun listed => other ?_⟩, ?_, written.isPassable⟩
    · rw [List.mem_cons] at listed
      rcases listed with rfl | listed
      · simp
      · exact List.mem_append_right _ listed
    · intro fuel rest enough behind
      obtain ⟨fuel, rfl⟩ := Nat.exists_eq_add_one_of_ne_zero
        (show fuel ≠ 0 by rw [List.length_cons] at enough; omega)
      rw [← readScalar_scalarText written behind, List.cons_append, readValue]
      all_goals
        rintro u equal
        cases equal
        simp at other

theorem NestedText.legible (legible : ∀ v t, value v t → Legible depth v t)
    (written : NestedText value v t) : Legible (depth + 1) v t := by
  cases written with
  | simple simple => exact simple.legible
  | @array items t inside =>
    refine ⟨⟨_, _, rfl, by decide⟩, ?_, inside.passable legible⟩
    intro fuel rest enough _
    rw [List.length_cons] at enough
    obtain ⟨fuel, rfl⟩ := Nat.exists_eq_add_one_of_ne_zero (show fuel ≠ 0 by omega)
    rw [List.cons_append, readValue,
      readItems_itemsText legible inside fuel rest (Nat.le_of_succ_le_succ enough)]
    rfl
  | @table entries t inside =>
    refine ⟨⟨_, _, rfl, by decide⟩, ?_, inside.passable legible rfl⟩
    intro fuel rest enough _
    rw [List.length_cons] at enough
    obtain ⟨fuel, rfl⟩ := Nat.exists_eq_add_one_of_ne_zero (show fuel ≠ 0 by omega)
    rw [List.cons_append, readValue,
      readEntries_entriesText legible inside fuel rest (Nat.le_of_succ_le_succ enough)]
    rfl

/-- Whatever is written as a value is read as that value, and can be passed over. -/
theorem legible_valueText : ∀ {depth : Nat} {v : Value} {t : Text}, ValueText depth v t →
    Legible depth v t
  | 0, _, _, written => SimpleText.legible written
  | _ + 1, _, _, written => NestedText.legible (fun _ _ => legible_valueText) written

end MethodLines.Toml
