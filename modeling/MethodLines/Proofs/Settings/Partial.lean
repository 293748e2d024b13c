import MethodLines.Proofs.Toml.Documents

/-! Settings of documents that leave keys out, that hold more than is known, or that give a known
key a value of a wrong kind. -/
namespace MethodLines

open Toml

section

variable {α : Type} {key other : Text} {a default : α} {keys : List Text}

/-- A value that counts once its key has been given, and its default before. -/
def chosen (key : Text) (a default : α) (keys : List Text) : α :=
  if key ∈ keys then a else default

theorem chosen_last : chosen key a default (keys ++ [key]) = a :=
  if_pos (List.mem_append_right keys List.mem_cons_self)

theorem chosen_other (apart : key ≠ other) :
    chosen key a default (keys ++ [other]) = chosen key a default keys := by
  simp [chosen, apart]

theorem chosen_covered (covered : a ≠ default → key ∈ keys) : chosen key a default keys = a := by
  rw [chosen, ite_eq_left_iff]
  intro missing
  by_contra apart
  exact missing (covered (Ne.symm apart))

end

/-- Entries that each give what their key stands for give it for all their keys. -/
theorem foldlM_chosen {σ : Type} {entry : σ → Text → Value → Option σ} {only : List Text → σ}
    {entries : Entries}
    (step : ∀ keys, ∀ e ∈ entries, entry (only keys) e.1 e.2 = some (only (keys ++ [e.1])))
    (keys : List Text) :
    entries.foldlM (fun s e => entry s e.1 e.2) (only keys) =
      some (only (keys ++ entries.map Prod.fst)) := by
  induction entries generalizing keys with
  | nil =>
    rw [List.map_nil, List.append_nil]
    rfl
  | cons e entries ih =>
    rw [List.foldlM_cons, step keys e List.mem_cons_self, List.map_cons,
      List.append_cons keys _ (entries.map Prod.fst)]
    exact ih (fun keys e listed => step keys e (List.mem_cons_of_mem _ listed)) _

/-- Entries lead to what all their keys tell. -/
theorem foldlM_eq_some {σ : Type} {entry : σ → Text → Value → Option σ} {only : List Text → σ}
    {entries : Entries} {start told : σ}
    (step : ∀ keys, ∀ e ∈ entries, entry (only keys) e.1 e.2 = some (only (keys ++ [e.1])))
    (nothing : only [] = start) (all : only (entries.map Prod.fst) = told) :
    entries.foldlM (fun s e => entry s e.1 e.2) start = some told := by
  rw [← nothing, foldlM_chosen step, List.nil_append, all]

/-- What fails after any beginning makes the whole fail. -/
theorem foldlM_eq_none {σ α : Type} {f : σ → α → Option σ} {xs : List α} {x : α} (listed : x ∈ xs)
    (fails : ∀ s, f s x = none) (s : σ) : xs.foldlM f s = none := by
  induction xs generalizing s with
  | nil => cases listed
  | cons y xs ih =>
    rw [List.foldlM_cons]
    rcases List.mem_cons.mp listed with rfl | later
    · rw [fails]
      rfl
    · cases f s y with
      | none => rfl
      | some s' => exact ih later s'

theorem passing_of_isPassable {σ : Type} {v : Value} (passable : v.isPassable = true) (known : σ) :
    passing known v = some known := if_pos passable

theorem text?_eq_none {v : Value} (other : ∀ t, v ≠ .string t) : v.text? = none := by
  cases v with
  | string t => exact absurd rfl (other t)
  | _ => rfl

theorem boolean?_eq_none {v : Value} (other : ∀ b, v ≠ .boolean b) : v.boolean? = none := by
  cases v with
  | boolean b => exact absurd rfl (other b)
  | _ => rfl

theorem arePassableEntries_iff {entries : Entries} :
    Value.arePassableEntries entries = true ↔ ∀ e ∈ entries, e.2.isPassable = true := by
  induction entries with
  | nil => simp [Value.arePassableEntries]
  | cons e entries ih => simp [Value.arePassableEntries, ih]

/-- What can be set under a key: which values tell it, and which are of a wrong kind. -/
structure Choice (α : Type) where
  key : Text
  default : α
  Tells : α → Value → Prop
  Refuses : Value → Prop

/-- A section of two choices, and how its entries are taken in. -/
structure Choices (σ α β : Type) where
  first : Choice α
  second : Choice β
  make : α → β → σ
  entry : σ → Text → Value → Option σ
  apart : first.key ≠ second.key
  entry_first : ∀ {a v}, first.Tells a v → ∀ a' b,
    entry (make a' b) first.key v = some (make a b)
  entry_second : ∀ {b v}, second.Tells b v → ∀ a b',
    entry (make a b') second.key v = some (make a b)
  refused_first : ∀ {v}, first.Refuses v → ∀ s, entry s first.key v = none
  refused_second : ∀ {v}, second.Refuses v → ∀ s, entry s second.key v = none
  entry_unknown : ∀ {key v}, key ≠ first.key → key ≠ second.key → v.isPassable = true →
    ∀ s, entry s key v = some s

namespace Choices

variable {σ α β : Type} {k : Choices σ α β} {a : α} {b : β} {key : Text} {v : Value}
variable {entries : Entries}

def initial (k : Choices σ α β) : σ := k.make k.first.default k.second.default

/-- An entry that tells one of two choices, or that is not known. -/
inductive Agrees (k : Choices σ α β) (a : α) (b : β) : Text → Value → Prop where
  | first {v : Value} : k.first.Tells a v → Agrees k a b k.first.key v
  | second {v : Value} : k.second.Tells b v → Agrees k a b k.second.key v
  | unknown {key : Text} {v : Value} : key ≠ k.first.key → key ≠ k.second.key → Agrees k a b key v

/-- Entries that agree with two choices, and tell those that are not as by default. -/
structure Told (k : Choices σ α β) (a : α) (b : β) (entries : Entries) : Prop where
  agreeing : ∀ e ∈ entries, k.Agrees a b e.1 e.2
  first : a ≠ k.first.default → k.first.key ∈ entries.map Prod.fst
  second : b ≠ k.second.default → k.second.key ∈ entries.map Prod.fst

inductive Refuses (k : Choices σ α β) : Text → Value → Prop where
  | first {v : Value} : k.first.Refuses v → Refuses k k.first.key v
  | second {v : Value} : k.second.Refuses v → Refuses k k.second.key v

def only (k : Choices σ α β) (a : α) (b : β) (keys : List Text) : σ :=
  k.make (chosen k.first.key a k.first.default keys) (chosen k.second.key b k.second.default keys)

theorem entry_only (agreeing : k.Agrees a b key v) (passable : v.isPassable = true)
    (keys : List Text) : k.entry (k.only a b keys) key v = some (k.only a b (keys ++ [key])) := by
  cases agreeing with
  | first tells => rw [only, only, k.entry_first tells, chosen_last, chosen_other k.apart.symm]
  | second tells => rw [only, only, k.entry_second tells, chosen_last, chosen_other k.apart]
  | unknown first second =>
    rw [k.entry_unknown first second passable, only, only, chosen_other (Ne.symm first),
      chosen_other (Ne.symm second)]

theorem foldlM_told (told : k.Told a b entries)
    (passable : ∀ e ∈ entries, e.2.isPassable = true) :
    entries.foldlM (fun s e => k.entry s e.1 e.2) k.initial = some (k.make a b) := by
  refine foldlM_eq_some (fun keys e listed =>
    entry_only (told.agreeing e listed) (passable e listed) keys) rfl ?_
  rw [only, chosen_covered told.first, chosen_covered told.second]

theorem foldlM_refused (refused : k.Refuses key v) (listed : (key, v) ∈ entries) (s : σ) :
    entries.foldlM (fun s e => k.entry s e.1 e.2) s = none := by
  refine foldlM_eq_none listed (fun s => ?_) s
  cases refused with
  | first refused => exact k.refused_first refused s
  | second refused => exact k.refused_second refused s

end Choices

def Choice.flag (key : Text) (default : Bool) : Choice Bool where
  key
  default
  Tells b v := v = .boolean b
  Refuses v := ∀ b, v ≠ .boolean b

def InputRules.choices : Choices InputRules Text Bool where
  first := {
    key := "comment_prefix"
    default := "#"
    Tells := fun mark v => v = .string mark
    Refuses := fun v => ∀ mark, v ≠ .string mark }
  second := .flag "skip_blank_lines" true
  make := InputRules.mk
  entry := InputRules.entry
  apart := by decide
  entry_first := by
    rintro mark _ rfl _ _
    rfl
  entry_second := by
    rintro b _ rfl _ _
    rfl
  refused_first := by
    intro v other s
    show entry s "comment_prefix" v = none
    rw [entry, if_pos rfl, text?_eq_none other]
    rfl
  refused_second := by
    intro v other s
    show entry s "skip_blank_lines" v = none
    rw [entry, if_neg (by decide), if_pos rfl, boolean?_eq_none other]
    rfl
  entry_unknown := by
    intro key v (first : key ≠ ("comment_prefix" : Text))
      (second : key ≠ ("skip_blank_lines" : Text)) passable s
    rw [entry, if_neg first, if_neg second, passing_of_isPassable passable]

def BatchRules.choices : Choices BatchRules Bool Bool where
  first := .flag "parallel" true
  second := .flag "fail_fast" false
  make := BatchRules.mk
  entry := BatchRules.entry
  apart := by decide
  entry_first := by
    rintro b _ rfl _ _
    rfl
  entry_second := by
    rintro b _ rfl _ _
    rfl
  refused_first := by
    intro v other s
    show entry s "parallel" v = none
    rw [entry, if_pos rfl, boolean?_eq_none other]
    rfl
  refused_second := by
    intro v other s
    show entry s "fail_fast" v = none
    rw [entry, if_neg (by decide), if_pos rfl, boolean?_eq_none other]
    rfl
  entry_unknown := by
    intro key v (first : key ≠ ("parallel" : Text))
      (second : key ≠ ("fail_fast" : Text)) passable s
    rw [entry, if_neg first, if_neg second, passing_of_isPassable passable]

/-- What is not set has no entry that would say so. -/
def OutputRules.choices : Choices OutputRules (Option Format) (Option Bool) where
  first := {
    key := "default_format"
    default := none
    Tells := fun format v => ∃ f, format = some f ∧ v = .string f.name
    Refuses := fun _ => False }
  second := {
    key := "use_color"
    default := none
    Tells := fun color v => ∃ b, color = some b ∧ v = .boolean b
    Refuses := fun v => ∀ b, v ≠ .boolean b }
  make := OutputRules.mk
  entry := OutputRules.entry
  apart := by decide
  entry_first := by
    rintro _ _ ⟨f, rfl, rfl⟩ format color
    show entry ⟨format, color⟩ "default_format" (.string f.name) = some ⟨some f, color⟩
    rw [entry, if_pos rfl, Value.format?, Format.ofName?_name]
    rfl
  entry_second := by
    rintro _ _ ⟨b, rfl, rfl⟩ _ _
    rfl
  refused_first := fun impossible => impossible.elim
  refused_second := by
    intro v other s
    show entry s "use_color" v = none
    rw [entry, if_neg (by decide), if_pos rfl, boolean?_eq_none other]
    rfl
  entry_unknown := by
    intro key v (first : key ≠ ("default_format" : Text))
      (second : key ≠ ("use_color" : Text)) passable s
    rw [entry, if_neg first, if_neg second, passing_of_isPassable passable]

namespace Settings

variable {c : Settings} {name key : Text} {v : Value}

def sections : List Text := ["input", "batch", "output"]

/-- A section that tells all settings in it that are not as by default, or whatever has another
name. -/
inductive Agrees (c : Settings) : Text → Value → Prop where
  | input {origin : Origin} {entries : Entries} :
      InputRules.choices.Told c.input.commentMark c.input.skipBlank entries →
      Agrees c "input" (.table origin entries)
  | batch {origin : Origin} {entries : Entries} :
      BatchRules.choices.Told c.batch.parallel c.batch.failFast entries →
      Agrees c "batch" (.table origin entries)
  | output {origin : Origin} {entries : Entries} :
      OutputRules.choices.Told c.output.format c.output.color entries →
      Agrees c "output" (.table origin entries)
  | unknown {name : Text} {v : Value} : name ∉ sections → Agrees c name v

structure Covered (c : Settings) (names : List Text) : Prop where
  input : c.input ≠ ⟨"#", true⟩ → ("input" : Text) ∈ names
  batch : c.batch ≠ ⟨true, false⟩ → ("batch" : Text) ∈ names
  output : c.output ≠ ⟨none, none⟩ → ("output" : Text) ∈ names

def only (c : Settings) (names : List Text) : Settings where
  input := chosen "input" c.input ⟨"#", true⟩ names
  batch := chosen "batch" c.batch ⟨true, false⟩ names
  output := chosen "output" c.output ⟨none, none⟩ names

/-- A section is read as what its entries tell. -/
theorem section?_told {σ α β : Type} {k : Choices σ α β} {a : α} {b : β} {entries : Entries}
    (told : k.Told a b entries) {origin : Origin}
    (passable : (Value.table origin entries).isPassable = true)
    (ofItems : List Value → Option σ) :
    Value.section? k.initial k.entry ofItems (.table origin entries) = some (k.make a b) :=
  k.foldlM_told told (arePassableEntries_iff.mp passable)

theorem entry_only (agreeing : c.Agrees name v) (passable : v.isPassable = true)
    (names : List Text) : entry (c.only names) name v = some (c.only (names ++ [name])) := by
  cases agreeing with
  | input told =>
    have read := section?_told told passable InputRules.ofItems
    rw [entry, if_pos rfl, only, only, chosen_last, chosen_other (by decide),
      chosen_other (by decide)]
    exact congrArg (Option.map _) read
  | batch told =>
    have read := section?_told told passable BatchRules.ofItems
    rw [entry, if_neg (by decide), if_pos rfl, only, only, chosen_last, chosen_other (by decide),
      chosen_other (by decide)]
    exact congrArg (Option.map _) read
  | output told =>
    have read := section?_told told passable OutputRules.ofItems
    rw [entry, if_neg (by decide), if_neg (by decide), if_pos rfl, only, only, chosen_last,
      chosen_other (by decide), chosen_other (by decide)]
    exact congrArg (Option.map _) read
  | unknown unknown =>
    simp only [sections, List.mem_cons, List.not_mem_nil, or_false, not_or] at unknown
    obtain ⟨input, batch, output⟩ := unknown
    rw [entry, if_neg input, if_neg batch, if_neg output, passing_of_isPassable passable, only,
      only, chosen_other (Ne.symm input), chosen_other (Ne.symm batch),
      chosen_other (Ne.symm output)]

theorem ofEntries_eq {entries : Entries} (agreeing : ∀ e ∈ entries, c.Agrees e.1 e.2)
    (passable : ∀ e ∈ entries, e.2.isPassable = true) (covered : c.Covered (entries.map Prod.fst)) :
    ofEntries entries = some c := by
  refine foldlM_eq_some (fun names e listed =>
    entry_only (agreeing e listed) (passable e listed) names) rfl ?_
  rw [only, chosen_covered covered.input, chosen_covered covered.batch,
    chosen_covered covered.output]

/-- An entry of a section whose value is of another kind than its key asks for. -/
inductive Mistyped : Text → Text → Value → Prop where
  | input {key : Text} {v : Value} : InputRules.choices.Refuses key v → Mistyped "input" key v
  | batch {key : Text} {v : Value} : BatchRules.choices.Refuses key v → Mistyped "batch" key v
  | output {key : Text} {v : Value} : OutputRules.choices.Refuses key v → Mistyped "output" key v

theorem Mistyped.refused (mistyped : Mistyped name key v) {entries : Entries}
    (listed : (key, v) ∈ entries) (origin : Origin) (s : Settings) :
    s.entry name (.table origin entries) = none := by
  cases mistyped with
  | input refused =>
    rw [entry, if_pos rfl]
    exact congrArg (Option.map _) (Choices.foldlM_refused refused listed _)
  | batch refused =>
    rw [entry, if_neg (by decide), if_pos rfl]
    exact congrArg (Option.map _) (Choices.foldlM_refused refused listed _)
  | output refused =>
    rw [entry, if_neg (by decide), if_neg (by decide), if_pos rfl]
    exact congrArg (Option.map _) (Choices.foldlM_refused refused listed _)

theorem ofText?_eq {t : Text} {entries : Entries} (read : Toml.ofText? t = some entries) :
    ofText? t = ofEntries entries := by
  rw [ofText?, read]
  rfl

/-- Every value can be given to every key, on a line of its own. -/
theorem exists_line (key : Text) {v : Value} {t : Text} (spelled : ValueText 80 v t) :
    ∃ l : Line, l.entry = (key, v) := by
  obtain ⟨text, quoted⟩ := exists_quotedText key
  exact ⟨⟨[], .nil, ⟨key, text, .quoted quoted⟩, [], [], by simp, v, t, spelled, ['\n'],
    .ended (by decide)⟩, rfl⟩

/-- Two choices can be told by lines, if their values can be written or are as by default. -/
theorem exists_lines {σ α β : Type} (k : Choices σ α β) {a : α} {b : β}
    (first : a = k.first.default ∨ ∃ v t, k.first.Tells a v ∧ ValueText 80 v t)
    (second : b = k.second.default ∨ ∃ v t, k.second.Tells b v ∧ ValueText 80 v t) :
    ∃ lines : List Line, k.Told a b (lines.map Line.entry) ∧
      (lines.map (·.key.key)).Nodup := by
  have keys : ∀ {key : Text} {v : Value} {l : Line}, l.entry = (key, v) → l.key.key = key :=
    fun same => congrArg Prod.fst same
  rcases first with absent | ⟨v, t, tells, spelled⟩
  · rcases second with absent' | ⟨w, u, tells', spelled'⟩
    · exact ⟨[], ⟨by simp, fun other => absurd absent other, fun other => absurd absent' other⟩,
        .nil⟩
    · obtain ⟨l, same⟩ := exists_line k.second.key spelled'
      exact ⟨[l], ⟨by simpa [same] using .second tells', fun other => absurd absent other,
        fun _ => by simp [same]⟩, List.pairwise_singleton _ _⟩
  · obtain ⟨l, same⟩ := exists_line k.first.key spelled
    rcases second with absent' | ⟨w, u, tells', spelled'⟩
    · exact ⟨[l], ⟨by simpa [same] using .first tells, fun _ => by simp [same],
        fun other => absurd absent' other⟩, List.pairwise_singleton _ _⟩
    · obtain ⟨l', same'⟩ := exists_line k.second.key spelled'
      refine ⟨[l, l'], ⟨?_, fun _ => by simp [same], fun _ => by simp [same']⟩, ?_⟩
      · simpa [same, same'] using ⟨.first tells, .second tells'⟩
      · simpa [keys same, keys same'] using k.apart

theorem exists_boolean (b : Bool) : ∃ t, ValueText 80 (.boolean b) t := by
  cases b with
  | true => exact ⟨_, .simple (.scalar .yes)⟩
  | false => exact ⟨_, .simple (.scalar .no)⟩

theorem exists_string (s : Text) : ∃ t, ValueText 80 (.string s) t := by
  obtain ⟨t, quoted⟩ := exists_quotedText s
  exact ⟨t, .simple (.string (.quoted quoted))⟩

/-- There is a document that tells any settings. -/
theorem exists_told (c : Settings) : ∃ sections, Distinct [] sections ∧
    (∀ s ∈ sections, c.Agrees s.name.key (.table .header (s.lines.map Line.entry))) ∧
    c.Covered (sections.map (·.name.key)) := by
  obtain ⟨mark, marked⟩ := exists_string c.input.commentMark
  obtain ⟨skip, skipped⟩ := exists_boolean c.input.skipBlank
  obtain ⟨input, inputTold, inputDistinct⟩ := exists_lines InputRules.choices
    (.inr ⟨_, mark, rfl, marked⟩) (.inr ⟨_, skip, rfl, skipped⟩)
  obtain ⟨parallel, parallelText⟩ := exists_boolean c.batch.parallel
  obtain ⟨failFast, failFastText⟩ := exists_boolean c.batch.failFast
  obtain ⟨batch, batchTold, batchDistinct⟩ := exists_lines BatchRules.choices
    (.inr ⟨_, parallel, rfl, parallelText⟩) (.inr ⟨_, failFast, rfl, failFastText⟩)
  have format : c.output.format = none ∨
      ∃ v t, OutputRules.choices.first.Tells c.output.format v ∧ ValueText 80 v t := by
    cases chosen : c.output.format with
    | none => exact .inl rfl
    | some f =>
      obtain ⟨t, text⟩ := exists_string f.name
      exact .inr ⟨_, t, ⟨f, rfl, rfl⟩, text⟩
  have color : c.output.color = none ∨
      ∃ v t, OutputRules.choices.second.Tells c.output.color v ∧ ValueText 80 v t := by
    cases chosen : c.output.color with
    | none => exact .inl rfl
    | some b =>
      obtain ⟨t, text⟩ := exists_boolean b
      exact .inr ⟨_, t, ⟨b, rfl, rfl⟩, text⟩
  obtain ⟨output, outputTold, outputDistinct⟩ := exists_lines OutputRules.choices format color
  refine ⟨[.bare "input" (by decide) (by decide) input, .bare "batch" (by decide) (by decide) batch,
    .bare "output" (by decide) (by decide) output], ⟨?_, ?_⟩, ?_, ?_⟩
  · show (["input", "batch", "output"] : List Text).Nodup
    decide
  · exact List.forall_mem_cons.mpr ⟨inputDistinct, List.forall_mem_cons.mpr ⟨batchDistinct,
      List.forall_mem_singleton.mpr outputDistinct⟩⟩
  · exact List.forall_mem_cons.mpr ⟨.input inputTold, List.forall_mem_cons.mpr ⟨.batch batchTold,
      List.forall_mem_singleton.mpr (.output outputTold)⟩⟩
  · exact ⟨fun _ => .head _, fun _ => .tail _ (.head _), fun _ => .tail _ (.tail _ (.head _))⟩

/-- The settings of any document, by the entries that it is read as. -/
theorem filled_or_refused {t : Text} {entries : Entries} (read : Toml.ofText? t = some entries) :
    ((∀ e ∈ entries, c.Agrees e.1 e.2) → (∀ e ∈ entries, e.2.isPassable = true) →
      c.Covered (entries.map Prod.fst) → ofText? t = some c) ∧
    ∀ name origin inner key v, (name, .table origin inner) ∈ entries → (key, v) ∈ inner →
      Mistyped name key v → ofText? t = none := by
  rw [ofText?_eq read]
  constructor
  · intro agreeing passable covered
    exact ofEntries_eq agreeing passable covered
  · intro name origin inner key v listed given mistyped
    exact foldlM_eq_none listed (mistyped.refused given origin) _

/-- Whatever the lines of a document are spelled as can be passed over. -/
theorem passable_render (top : List Line) (sections : List Section) :
    ∀ e ∈ top.map Line.entry ++ sections.map Section.entry, e.2.isPassable = true := by
  have lines : ∀ lines : List Line, ∀ e ∈ lines.map Line.entry, e.2.isPassable = true := by
    intro lines e listed
    obtain ⟨l, _, rfl⟩ := List.mem_map.mp listed
    exact (legible_valueText l.spelled).passable
  refine List.forall_mem_append.mpr ⟨lines top, fun e listed => ?_⟩
  obtain ⟨s, _, rfl⟩ := List.mem_map.mp listed
  exact arePassableEntries_iff.mpr (lines s.lines)

/-- A document of plain lines is read as exactly the settings that it tells in part, if what it
leaves out is as by default, in any order and with any values under unknown names among it; and
nothing of a document counts that gives a known key a value of a wrong kind. All settings are told
by some document. Other documents are read by their entries. -/
theorem defaults_filled (c : Settings) :
    (∀ top sections, Distinct top sections →
      ((∀ l ∈ top, c.Agrees l.key.key l.value) →
        (∀ s ∈ sections, c.Agrees s.name.key (.table .header (s.lines.map Line.entry))) →
        c.Covered (top.map (·.key.key) ++ sections.map (·.name.key)) →
        ofText? (render top sections) = some c) ∧
      ∀ s ∈ sections, ∀ l ∈ s.lines, Mistyped s.name.key l.key.key l.value →
        ofText? (render top sections) = none) ∧
    (∃ sections, Distinct [] sections ∧
      (∀ s ∈ sections, c.Agrees s.name.key (.table .header (s.lines.map Line.entry))) ∧
      c.Covered (sections.map (·.name.key))) ∧
    ∀ t entries, Toml.ofText? t = some entries →
      ((∀ e ∈ entries, c.Agrees e.1 e.2) → (∀ e ∈ entries, e.2.isPassable = true) →
        c.Covered (entries.map Prod.fst) → ofText? t = some c) ∧
      ∀ name origin inner key v, (name, .table origin inner) ∈ entries → (key, v) ∈ inner →
        Mistyped name key v → ofText? t = none := by
  refine ⟨fun top sections distinct => ?_, exists_told c, fun t entries => filled_or_refused⟩
  obtain ⟨filled, refused⟩ := filled_or_refused (c := c) (ofText?_render distinct)
  constructor
  · intro outside inside covered
    refine filled ?_ (passable_render top sections) ?_
    · intro e listed
      rcases List.mem_append.mp listed with inTop | inSections
      · obtain ⟨l, member, rfl⟩ := List.mem_map.mp inTop
        exact outside l member
      · obtain ⟨s, member, rfl⟩ := List.mem_map.mp inSections
        exact inside s member
    · rw [List.map_append, List.map_map, List.map_map]
      exact covered
  · intro s member l line mistyped
    exact refused _ _ _ _ _ (List.mem_append_right _ (List.mem_map_of_mem member))
      (List.mem_map_of_mem line) mistyped

/-- Unknown entries with values of all kinds, two sections in another order than usual, and a
comment; and a value of a wrong kind. -/
theorem defaults_filled_reordered :
    let c : Settings := ⟨⟨"//", true⟩, {}, ⟨some .json, none⟩⟩
    ofText? ("mask = 0xFF\nratio = -1.5e-3\nsince = 2024-02-29 23:59Z\n" ++
      "list = [1_000, [],]\npoint = {x.y = nan}\n# last first\n[output]\n" ++
      "default_format = \"json\"\n[ new ]\nkept = true # yet\n[input]\n" ++
      "comment_prefix = \"/\\u002F\"\n") = some c ∧
    ofText? "[batch]\nparallel = \"yes\"\n" = none := by
  intro c
  have grouped : ∀ ds : List Nat, (∀ d ∈ ds, d < 10) → ds ≠ [] →
      Grouped 10 ds (ds.map Nat.digitChar) :=
    fun ds small => .of_numeral (numeral_digitChar ds small)
  have maskText : IntegerText (valueOf 16 [15, 15]) "0xFF" :=
    .based (show (16, 'x') ∈ _ by decide)
      (.cons (.upper (by decide)) (.last (.upper (by decide))))
  have mask : ValueText 80 (.integer (some (valueOf 16 [15, 15]))) "0xFF" :=
    .simple (.scalar (.integer maskText (by decide) (by decide)))
  have ratioText : FloatText "-1.5e-3" :=
    .decimal .minus ⟨grouped [1] (by decide) (by decide), by decide⟩
      (.some (grouped [5] (by decide) (by decide)))
      (.some (.inl rfl) .minus (grouped [3] (by decide) (by decide))) (by decide)
      (by unfold IsFinite; decide +kernel)
  have ratio : ValueText 80 (.float true) "-1.5e-3" := .simple (.scalar (.float ratioText))
  have day : DateText "2024-02-29" :=
    .date (.digits [2, 0, 2, 4] (by decide)) (.digits [0, 2] (by decide))
      (.digits [2, 9] (by decide)) (.leap (by decide) fun century => absurd century (by decide))
  have clock : ClockText "23:59" :=
    .clock (.digits [2, 3] (by decide)) (.digits [5, 9] (by decide)) (by decide) (by decide)
  have sinceText : DatetimeText "2024-02-29 23:59Z" :=
    .both day (show ' ' ∈ _ by decide) (.minutes clock) (.universal (show 'Z' ∈ _ by decide))
  have since : ValueText 80 .datetime "2024-02-29 23:59Z" := .simple (.scalar (.datetime sinceText))
  have space : Layout [' '] := .blank (.inl rfl) .nil
  have thousandText : IntegerText (1 * valueOf 10 [1, 0, 0, 0]) "1_000" :=
    .decimal .none ⟨.group (.lower (by decide)) (grouped [0, 0, 0] (by decide) (by decide)),
      by decide⟩
  have thousand : ValueText 79 (.integer (some (1 * valueOf 10 [1, 0, 0, 0]))) "1_000" :=
    .simple (.scalar (.integer thousandText (by decide) (by decide)))
  have empty : ValueText 79 (.array false []) "[]" := .array (.close .nil)
  have list : ValueText 80 (.array false [_, .array false []]) "[1_000, [],]" :=
    .array (.cons .nil thousand .nil (.cons space empty .nil (.close .nil)))
  have nan : ValueText 79 (.float true) "nan" :=
    .simple (.scalar (.float (.special .none (by decide))))
  have nested : Added ["x"] "y" (.float true) [] [("x", .table .dotted [("y", .float true)])] :=
    .fresh (by decide) (.last (by decide))
  have dotted : PathText ["x"] "y" "x.y" :=
    .dotted (.bare (by decide) (by decide))
      (show ∀ c ∈ ([] ++ [] : Text), c = ' ' ∨ c = '\t' by simp)
      (.last (.bare (by decide) (by decide)))
  have point : ValueText 80 (.table .inline [("x", .table .dotted [("y", .float true)])])
      "{x.y = nan}" :=
    .table (.last .nil (.entry dotted (by decide) space space nan nested) .nil)
  have yes : ValueText 80 (.boolean true) "true" := .simple (.scalar .yes)
  have json : ValueText 80 (.string "json") "\"json\"" :=
    .simple (.string (.quoted (quotedText_plain (by decide))))
  have wrong : ValueText 80 (.string "yes") "\"yes\"" :=
    .simple (.string (.quoted (quotedText_plain (by decide))))
  have slash : CharText '/' ['/'] := .plain (.inr (by decide)) (by decide) (by decide)
  have coded : CharText '/' ['\\', 'u', '0', '0', '2', 'F'] :=
    .code 'u' (.cons (.lower (d := 0) (by decide)) (.cons (.lower (d := 0) (by decide))
      (.cons (.lower (d := 2) (by decide)) (.cons (.upper (d := 15) (by decide)) .nil))))
      (by decide) (by decide)
  have mark : ValueText 80 (.string "//") "\"/\\u002F\"" :=
    .simple (.string (.quoted ⟨_, .cons slash (.cons coded .nil), rfl⟩))
  let top : List Line := [.bare "mask" (by decide) (by decide) mask,
    .bare "ratio" (by decide) (by decide) ratio, .bare "since" (by decide) (by decide) since,
    .bare "list" (by decide) (by decide) list, .bare "point" (by decide) (by decide) point]
  let output : Section := { Section.bare "output" (by decide) (by decide)
    [.bare "default_format" (by decide) (by decide) json] with
    lead := "# last first\n"
    layout := .comment (s := " last first") (e := ['\n']) (by decide) (by decide) .nil }
  let new : Section := { Section.bare "new" (by decide) (by decide)
    [{ Line.bare "kept" (by decide) (by decide) yes with
      tail := " # yet\n"
      ended := .blank (.inl rfl) (.comment (s := " yet") (by decide) (by decide)) }] with
    gap := [' ']
    gap' := [' ']
    blanks := by decide }
  let input : Section := .bare "input" (by decide) (by decide)
    [.bare "comment_prefix" (by decide) (by decide) mark]
  let batch : Section := .bare "batch" (by decide) (by decide)
    [.bare "parallel" (by decide) (by decide) wrong]
  have names : (["mask", "ratio", "since", "list", "point", "output", "new", "input"] :
      List Text).Nodup := by decide
  have unknown : ∀ name ∈ top.map (·.key.key), name ∉ Settings.sections := by
    show ∀ name ∈ (["mask", "ratio", "since", "list", "point"] : List Text), _
    decide
  have other : new.name.key ∉ Settings.sections := by
    show ("new" : Text) ∉ _
    decide
  have distinct : Distinct top [output, new, input] := by
    refine ⟨names, ?_⟩
    simp [output, new, input, Section.bare]
  have alone : Distinct [] [batch] :=
    ⟨List.pairwise_singleton _ _, List.forall_mem_singleton.mpr (List.pairwise_singleton _ _)⟩
  have told : ∀ t, t = render top [output, new, input] → ofText? t = some c := by
    rintro _ rfl
    refine ((defaults_filled c).1 top [output, new, input] distinct).1 ?_ ?_ ?_
    · exact fun l listed => .unknown (unknown _ (List.mem_map_of_mem listed))
    · refine List.forall_mem_cons.mpr ⟨.output ⟨?_, fun _ => .head _, fun set => absurd rfl set⟩,
        List.forall_mem_cons.mpr ⟨.unknown other, List.forall_mem_singleton.mpr
          (.input ⟨?_, fun _ => .head _, fun off => absurd rfl off⟩)⟩⟩
      · exact List.forall_mem_singleton.mpr (.first ⟨.json, rfl, rfl⟩)
      · exact List.forall_mem_singleton.mpr (.first rfl)
    · exact ⟨fun _ => List.mem_of_getElem? (i := 7) rfl, fun other => absurd rfl other,
        fun _ => List.mem_of_getElem? (i := 5) rfl⟩
  have refused := ((defaults_filled c).1 [] _ alone).2 _ List.mem_cons_self _ List.mem_cons_self
    (.batch (.first fun b other => by cases other))
  exact ⟨told _ rfl, refused⟩

end Settings
end MethodLines
