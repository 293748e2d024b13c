import MethodLines.Proofs.Toml.Values

/-! TOML documents of plain lines: entries, and sections of entries under a header. Such a
document is read line by line, and its tables hold the entries in the order of their lines. -/
namespace MethodLines.Toml

variable {c : Char} {t u key : Text}

/-- What can stand behind a statement: blanks, a comment and the end of the line. -/
inductive LineTail : Text → Prop where
  | ended {e : Text} : e ∈ lineEnds → LineTail e
  | blank {c : Char} {t : Text} : c = ' ' ∨ c = '\t' → LineTail t → LineTail (c :: t)
  | comment {s e : Text} : (∀ c ∈ s, Printed c) → e ∈ lineEnds → LineTail ('#' :: (s ++ e))

structure WrittenKey where
  key : Text
  text : Text
  written : KeyText key text

/-- A line that gives a key a value, and the layout in front of it. -/
structure Line where
  lead : Text
  layout : Layout lead
  key : WrittenKey
  gap : Text
  gap' : Text
  blanks : ∀ c ∈ gap ++ gap', c = ' ' ∨ c = '\t'
  value : Value
  text : Text
  spelled : ValueText 80 value text
  tail : Text
  ended : LineTail tail

namespace Line

def bare (key : Text) (filled : key ≠ [])
    (plain : ∀ c ∈ key, c.isAlphanum = true ∨ c = '_' ∨ c = '-') {v : Value} {t : Text}
    (spelled : ValueText 80 v t) : Line where
  lead := []
  layout := .nil
  key := ⟨key, key, .bare filled plain⟩
  gap := [' ']
  gap' := [' ']
  blanks := by simp
  value := v
  text := t
  spelled
  tail := ['\n']
  ended := .ended (by decide)

def body (l : Line) : Text :=
  l.key.text ++ (l.gap ++ '=' :: (l.gap' ++ (l.text ++ l.tail)))

def render (l : Line) : Text := l.lead ++ l.body

def entry (l : Line) : Text × Value := (l.key.key, l.value)

def statement (l : Line) : Statement := .entry [] l.key.key l.value

end Line

/-- A table under its header, and the layout in front of it. -/
structure Section where
  lead : Text
  layout : Layout lead
  name : WrittenKey
  gap : Text
  gap' : Text
  blanks : ∀ c ∈ gap ++ gap', c = ' ' ∨ c = '\t'
  tail : Text
  ended : LineTail tail
  lines : List Line

namespace Section

def bare (name : Text) (filled : name ≠ [])
    (plain : ∀ c ∈ name, c.isAlphanum = true ∨ c = '_' ∨ c = '-') (lines : List Line) :
    Section where
  lead := []
  layout := .nil
  name := ⟨name, name, .bare filled plain⟩
  gap := []
  gap' := []
  blanks := by simp
  tail := ['\n']
  ended := .ended (by decide)
  lines

def body (s : Section) : Text := '[' :: (s.gap ++ (s.name.text ++ (s.gap' ++ ']' :: s.tail)))

def header (s : Section) : Text := s.lead ++ s.body

def render (s : Section) : Text := s.header ++ s.lines.flatMap Line.render

def entry (s : Section) : Text × Value := (s.name.key, .table .header (s.lines.map Line.entry))

def statements (s : Section) : List Statement := .table [] s.name.key :: s.lines.map Line.statement

end Section

/-- A document: lines in front of all headers, and sections. -/
def render (top : List Line) (sections : List Section) : Text :=
  top.flatMap Line.render ++ sections.flatMap Section.render

theorem skipLineEnd_lineEnd (ended : t ∈ lineEnds) (inComment : Bool) (u : Text) :
    skipLineEnd inComment (t ++ u) = some u := by
  rcases mem_lineEnds.mp ended with rfl | rfl <;> rfl

theorem skipLineEnd_comment (printed : ∀ c ∈ t, Printed c) (u : Text) :
    skipLineEnd true (t ++ u) = skipLineEnd true u := by
  induction t with
  | nil => rfl
  | cons c t ih =>
    obtain ⟨first, others⟩ := List.forall_mem_cons.mp printed
    rw [List.cons_append, skipLineEnd.eq_4 _ _ _ first.ne_lineEnd.1 fun _ returned _ =>
      first.ne_lineEnd.2 returned, if_pos rfl, if_pos (isPrintable_iff.mpr first)]
    exact ih others

namespace LineTail

theorem skipped (tail : LineTail t) (u : Text) : skipLineEnd false (t ++ u) = some u := by
  induction tail with
  | ended ended => exact skipLineEnd_lineEnd ended false u
  | blank space _ ih => rcases space with rfl | rfl <;> exact ih
  | comment printed ended =>
    rw [List.cons_append, List.append_assoc]
    show skipLineEnd true _ = _
    rw [skipLineEnd_comment printed, skipLineEnd_lineEnd ended]

theorem start (tail : LineTail t) : ∃ c t', t = c :: t' ∧ c ∈ layoutChars := by
  cases tail with
  | ended ended =>
    rcases mem_lineEnds.mp ended with rfl | rfl <;> exact ⟨_, _, rfl, by decide⟩
  | blank space => exact ⟨_, _, rfl, by rcases space with rfl | rfl <;> decide⟩
  | comment => exact ⟨_, _, rfl, by decide⟩

theorem behind (tail : LineTail t) (u : Text) : Behind (t ++ u) := by
  have head : ∀ {t : Text}, LineTail t → ∀ c ∈ (t ++ u).head?, c ∈ layoutChars ++ endChars := by
    rintro t tail c first
    obtain ⟨d, t', rfl, special⟩ := tail.start
    cases first
    exact List.mem_append_left _ special
  refine .of_head (head tail) fun u' equal => ?_
  cases tail with
  | ended ended => rcases mem_lineEnds.mp ended with rfl | rfl <;> cases equal
  | blank _ tail =>
    cases equal
    exact head tail
  | comment => cases equal

end LineTail

namespace WrittenKey

/-- A key that is not dotted is read with the blanks behind it. -/
theorem readPath (k : WrittenKey) {gap : Text} (blanks : ∀ c ∈ gap, c = ' ' ∨ c = '\t')
    (bare : isBareKeyChar c = false) (ink : c ∉ '.' :: layoutChars) :
    readPath (k.text ++ (gap ++ c :: u)) = some ([], k.key, c :: u) := by
  have skipped : skipBlanks (gap ++ c :: u) = c :: u :=
    skipBlanks_append blanks fun d first => by
      cases first
      exact fun listed => ink (.tail _ listed)
  have ended : ∀ d ∈ (gap ++ c :: u).head?, isBareKeyChar d = false := by
    intro d first
    cases gap with
    | nil =>
      cases first
      exact bare
    | cons b gap =>
      cases first
      rcases blanks d List.mem_cons_self with rfl | rfl <;> decide
  have undotted : '.' ∉ (skipBlanks (gap ++ c :: u)).head? := by
    rw [skipped]
    rintro ⟨⟩
    exact ink List.mem_cons_self
  have read : readKeys depthLimit (k.text ++ (gap ++ c :: u)) = _ :=
    readKeys_pathText (.last k.written) (by decide) ended undotted
  rwa [skipped] at read

end WrittenKey

theorem readStatement_line (l : Line) {fuel : Nat} (enough : l.text.length ≤ fuel) (u : Text) :
    readStatement fuel (l.body ++ u) = some (l.statement, l.tail ++ u) := by
  obtain ⟨c, t, start, plain⟩ := l.key.written.ink
  obtain ⟨blanks, blanks'⟩ := List.forall_mem_append.mp l.blanks
  have legible := legible_valueText l.spelled
  obtain ⟨d, t', valueStart, ink⟩ := legible.start
  have whole : l.body ++ u =
      l.key.text ++ (l.gap ++ '=' :: (l.gap' ++ (l.text ++ (l.tail ++ u)))) := by
    simp [Line.body]
  have path := l.key.readPath (u := l.gap' ++ (l.text ++ (l.tail ++ u))) blanks
    (show isBareKeyChar '=' = false by decide) (by decide)
  have value : readValue fuel depthLimit (skipBlanks (l.gap' ++ (l.text ++ (l.tail ++ u)))) =
      some (l.value, l.tail ++ u) := by
    rw [skipBlanks_append blanks']
    · exact legible.read fuel _ enough (l.ended.behind u)
    · intro e first
      rw [valueStart] at first
      cases first
      exact fun listed => ink (.tail _ listed)
  rw [whole, readStatement.eq_3, path]
  · show (readValue fuel depthLimit (skipBlanks _) >>= _) = _
    rw [value]
    rfl
  all_goals
    rintro t'' equal
    rw [start, List.cons_append, List.cons.injEq] at equal
    exact plain (by simp [equal.1])

theorem readStatement_header (s : Section) (fuel : Nat) (u : Text) :
    readStatement fuel (s.body ++ u) = some (.table [] s.name.key, s.tail ++ u) := by
  obtain ⟨c, t, start, plain⟩ := s.name.written.ink
  obtain ⟨blanks, blanks'⟩ := List.forall_mem_append.mp s.blanks
  have whole : s.body ++ u =
      '[' :: (s.gap ++ (s.name.text ++ (s.gap' ++ ']' :: (s.tail ++ u)))) := by
    simp [Section.body]
  have path := s.name.readPath (u := s.tail ++ u) blanks' (show isBareKeyChar ']' = false by decide)
    (by decide)
  have unblanked : skipBlanks (s.gap ++ (s.name.text ++ (s.gap' ++ ']' :: (s.tail ++ u)))) =
      s.name.text ++ (s.gap' ++ ']' :: (s.tail ++ u)) := by
    refine skipBlanks_append blanks fun e first => ?_
    rw [start] at first
    cases first
    exact fun listed => plain (List.mem_append_right _ listed)
  rw [whole, readStatement.eq_2, unblanked, path]
  · rfl
  · rintro t' equal
    cases gap : s.gap with
    | nil =>
      rw [gap, start] at equal
      cases equal
      exact plain (by simp)
    | cons b gap' =>
      rw [gap] at equal
      cases equal
      rcases blanks '[' (by simp [gap]) with equal | equal <;> cases equal

/-- A line that is read as a statement, with any lines behind it. -/
structure Reads (t : Text) (s : Statement) : Prop where
  start : ∃ c t', t = c :: t' ∧ c ≠ '\uFEFF'
  step : ∀ fuel u statements, t.length ≤ fuel → readStatements fuel u = some statements →
    readStatements (fuel + 1) (t ++ u) = some (s :: statements)

theorem readStatements_step {fuel : Nat} {s : Statement} {statements : List Statement}
    {tail : Text} (ink : c ∉ layoutChars)
    (statement : readStatement fuel (c :: t) = some (s, tail ++ u)) (ended : LineTail tail)
    (further : readStatements fuel u = some statements) :
    readStatements (fuel + 1) (c :: t) = some (s :: statements) := by
  simp only [readStatements, skipLayout_ink ink, statement, ended.skipped, further,
    Option.bind_eq_bind, Option.bind_some]
  rfl

theorem Reads.behind {s : Statement} (reads : Reads t s) {lead : Text} (layout : Layout lead) :
    Reads (lead ++ t) s := by
  constructor
  · obtain ⟨c, t', rfl, plain⟩ := reads.start
    obtain ⟨d, u, whole⟩ := List.exists_cons_of_ne_nil (show lead ++ c :: t' ≠ [] by simp)
    refine ⟨d, u, whole, ?_⟩
    rintro rfl
    rcases layout.start (u := c :: t') '\uFEFF' (by rw [whole]; rfl) with special | first
    · exact absurd special (by decide)
    · exact plain (Option.some.inj first)
  · intro fuel u statements enough further
    rw [List.length_append] at enough
    have step := reads.step fuel u statements (by omega) further
    rw [readStatements] at step ⊢
    rw [List.append_assoc, layout.skipped]
    exact step

theorem reads_line (l : Line) : Reads l.render l.statement := by
  obtain ⟨c, t, start, plain⟩ := l.key.written.ink
  refine Reads.behind ⟨?_, ?_⟩ l.layout
  · rw [Line.body, start]
    exact ⟨c, _, rfl, fun mark => plain (by simp [mark])⟩
  · intro fuel u statements enough further
    have longer : l.text.length ≤ fuel := by
      simp only [Line.body, List.length_append, List.length_cons] at enough
      omega
    have statement := readStatement_line l longer u
    rw [Line.body, start] at statement ⊢
    exact readStatements_step (fun listed => plain (List.mem_append_right _ listed)) statement
      l.ended further

theorem reads_header (s : Section) : Reads s.header (.table [] s.name.key) := by
  refine Reads.behind ⟨⟨'[', _, rfl, by decide⟩, ?_⟩ s.layout
  intro fuel u statements _ further
  exact readStatements_step (by decide) (readStatement_header s fuel u) s.ended further

/-- A statement takes one step and is at least one character long. -/
theorem readStatements_pieces {pieces : List (Text × Statement)}
    (reads : ∀ p ∈ pieces, Reads p.1 p.2) (fuel : Nat)
    (enough : (pieces.flatMap Prod.fst).length < fuel) :
    readStatements fuel (pieces.flatMap Prod.fst) = some (pieces.map Prod.snd) := by
  obtain ⟨fuel, rfl⟩ := Nat.exists_eq_add_one_of_ne_zero (Nat.ne_zero_of_lt enough)
  induction pieces generalizing fuel with
  | nil => rfl
  | cons p pieces ih =>
    obtain ⟨first, others⟩ := List.forall_mem_cons.mp reads
    obtain ⟨c, t, filled, _⟩ := first.start
    have positive : 0 < p.1.length := by
      rw [filled]
      exact Nat.zero_lt_succ _
    rw [List.flatMap_cons, List.length_append] at enough
    obtain ⟨fuel, rfl⟩ := Nat.exists_eq_add_one_of_ne_zero (show fuel ≠ 0 by omega)
    rw [List.flatMap_cons, List.map_cons]
    exact first.step _ _ _ (by omega) (ih others fuel (by omega))

/-- The lines of a document, each with what it says. -/
def pieces (top : List Line) (sections : List Section) : List (Text × Statement) :=
  top.map (fun l => (l.render, l.statement)) ++ sections.flatMap fun s =>
    (s.header, .table [] s.name.key) :: s.lines.map fun l => (l.render, l.statement)

theorem flatMap_pieces (top : List Line) (sections : List Section) :
    (pieces top sections).flatMap Prod.fst = render top sections := by
  simp [pieces, render, List.flatMap_map, List.flatMap_assoc]
  rfl

theorem map_pieces (top : List Line) (sections : List Section) :
    (pieces top sections).map Prod.snd =
      top.map Line.statement ++ sections.flatMap Section.statements := by
  simp [pieces, List.map_flatMap]
  rfl

theorem reads_pieces (top : List Line) (sections : List Section) :
    ∀ p ∈ pieces top sections, Reads p.1 p.2 := by
  intro p listed
  rcases List.mem_append.mp listed with inTop | inSection
  · obtain ⟨l, _, rfl⟩ := List.mem_map.mp inTop
    exact reads_line l
  · obtain ⟨s, _, member⟩ := List.mem_flatMap.mp inSection
    rcases List.mem_cons.mp member with rfl | member
    · exact reads_header s
    · obtain ⟨l, _, rfl⟩ := List.mem_map.mp member
      exact reads_line l

theorem dropByteOrderMark_render (top : List Line) (sections : List Section) :
    dropByteOrderMark (render top sections) = render top sections := by
  have reads := reads_pieces top sections
  rw [← flatMap_pieces]
  generalize pieces top sections = listed at reads ⊢
  cases listed with
  | nil => rfl
  | cons p further =>
    obtain ⟨c, t, filled, plain⟩ := (reads p List.mem_cons_self).start
    rw [List.flatMap_cons, filled, List.cons_append, dropByteOrderMark.eq_2]
    rintro t' equal
    cases equal
    exact plain rfl

theorem not_mem_front {front behind : List Text} (distinct : (front ++ key :: behind).Nodup) :
    key ∉ front := by
  intro listed
  exact (List.nodup_append.mp distinct).2.2 _ listed _ List.mem_cons_self rfl

namespace Entries

theorem addAt_new {entries : Entries} (new : key ∉ entries.map Prod.fst) (v : Value) :
    entries.addAt [] key v .header = some (entries ++ [(key, v)]) := by
  show entries.add false key v .header = _
  rw [add, lookup_eq_none new]
  rfl

end Entries

namespace Document

theorem add_entry_top {entries : Entries} (new : key ∉ entries.map Prod.fst) (v : Value) :
    add ⟨entries, []⟩ (.entry [] key v) = some ⟨entries ++ [(key, v)], []⟩ := by
  show (entries.addAt [] key v .header >>= _) = _
  rw [Entries.addAt_new new]
  rfl

theorem add_table {entries : Entries} (new : key ∉ entries.map Prod.fst) (path : List Text) :
    add ⟨entries, path⟩ (.table [] key) = some ⟨entries ++ [(key, .table .header [])], [key]⟩ := by
  show (entries.openTable key .header >>= _) = _
  rw [Entries.openTable, lookup_eq_none new]
  rfl

theorem add_entry_section {entries inner : Entries} {name : Text}
    (other : name ∉ entries.map Prod.fst) (new : key ∉ inner.map Prod.fst) (v : Value) :
    add ⟨entries ++ [(name, .table .header inner)], [name]⟩ (.entry [] key v) =
      some ⟨entries ++ [(name, .table .header (inner ++ [(key, v)]))], [name]⟩ := by
  have found : (entries ++ [(name, Value.table .header inner)]).lookup name =
      some (.table .header inner) := by
    rw [List.lookup_append, lookup_eq_none other, List.lookup_cons_self]
    rfl
  show ((entries ++ [(name, Value.table .header inner)]).alter false _ [name] .header >>= _) = _
  rw [Entries.alter, found]
  dsimp only
  rw [if_neg (by decide), Entries.alter, Entries.addAt_new new]
  show some _ = some _
  rw [Entries.replace_between (by rwa [List.append_nil])]

/-- The lines of one table, wherever the table stands. -/
theorem foldlM_lines (whole : Entries → Entries) (path : List Text)
    (inPlace : ∀ inner key v, key ∉ inner.map Prod.fst →
      add ⟨whole inner, path⟩ (.entry [] key v) = some ⟨whole (inner ++ [(key, v)]), path⟩)
    (lines : List Line) (inner : Entries)
    (distinct : (inner.map Prod.fst ++ lines.map (·.key.key)).Nodup) :
    (lines.map Line.statement).foldlM add ⟨whole inner, path⟩ =
      some ⟨whole (inner ++ lines.map Line.entry), path⟩ := by
  induction lines generalizing inner with
  | nil =>
    rw [List.map_nil, List.map_nil, List.append_nil]
    rfl
  | cons l lines ih =>
    rw [List.map_cons] at distinct
    have new : l.key.key ∉ inner.map Prod.fst := not_mem_front distinct
    rw [List.append_cons (inner.map Prod.fst)] at distinct
    rw [List.map_cons, List.foldlM_cons, Line.statement, inPlace inner _ _ new]
    refine (ih (inner ++ [l.entry]) ?_).trans ?_
    · rw [List.map_append]
      exact distinct
    · rw [List.map_cons, List.append_cons inner _ (lines.map Line.entry)]

theorem foldlM_sections {sections : List Section}
    (each : ∀ s ∈ sections, (s.lines.map (·.key.key)).Nodup) (entries : Entries)
    (path : List Text) (distinct : (entries.map Prod.fst ++ sections.map (·.name.key)).Nodup) :
    ∃ path', (sections.flatMap Section.statements).foldlM add ⟨entries, path⟩ =
      some ⟨entries ++ sections.map Section.entry, path'⟩ := by
  induction sections generalizing entries path with
  | nil => exact ⟨path, by rw [List.map_nil, List.append_nil]; rfl⟩
  | cons s sections ih =>
    obtain ⟨first, others⟩ := List.forall_mem_cons.mp each
    rw [List.map_cons] at distinct
    have new : s.name.key ∉ entries.map Prod.fst := not_mem_front distinct
    rw [List.append_cons (entries.map Prod.fst)] at distinct
    have lines := foldlM_lines (fun inner => entries ++ [(s.name.key, .table .header inner)])
      [s.name.key] (fun _ _ v fresh => add_entry_section new fresh v) s.lines [] first
    obtain ⟨path', further⟩ := ih others (entries ++ [s.entry]) [s.name.key]
      (by rw [List.map_append]; exact distinct)
    refine ⟨path', ?_⟩
    rw [List.flatMap_cons, Section.statements, List.cons_append, List.foldlM_cons,
      add_table new path]
    show ((s.lines.map Line.statement ++ _).foldlM add _) = _
    rw [List.foldlM_append, lines]
    rw [List.map_cons, List.append_cons entries _ (sections.map Section.entry)]
    exact further

end Document

/-- No key is given twice: neither in a section nor, as an entry or a section, at the top. -/
structure Distinct (top : List Line) (sections : List Section) : Prop where
  outside : (top.map (·.key.key) ++ sections.map (·.name.key)).Nodup
  inside : ∀ s ∈ sections, (s.lines.map (·.key.key)).Nodup

/-- A document of plain lines is read as its entries and sections, in their order. -/
theorem ofText?_render {top : List Line} {sections : List Section}
    (distinct : Distinct top sections) :
    ofText? (render top sections) =
      some (top.map Line.entry ++ sections.map Section.entry) := by
  have statements : readStatements ((render top sections).length + 2) (render top sections) =
      some (top.map Line.statement ++ sections.flatMap Section.statements) := by
    rw [← map_pieces]
    have read := readStatements_pieces (reads_pieces top sections)
      ((render top sections).length + 2)
    rw [flatMap_pieces] at read
    exact read (by omega)
  have opened := Document.foldlM_lines id [] (fun _ _ v new => Document.add_entry_top new v) top []
    (List.nodup_append.mp distinct.outside).1
  obtain ⟨path, closed⟩ := Document.foldlM_sections distinct.inside (top.map Line.entry) []
    (by rw [List.map_map]; exact distinct.outside)
  rw [ofText?, dropByteOrderMark_render, statements]
  show Document.build? _ = _
  rw [Document.build?, List.foldlM_append]
  show Option.map _ ((top.map Line.statement).foldlM Document.add ⟨id [], []⟩ >>= _) = _
  rw [opened]
  show Option.map _ ((sections.flatMap Section.statements).foldlM Document.add
    ⟨top.map Line.entry, []⟩) = _
  rw [closed]
  rfl

end MethodLines.Toml
