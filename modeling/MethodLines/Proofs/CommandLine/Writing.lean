import Mathlib.Data.List.Nodup
import MethodLines.CommandLine

/-! Options can be written as words and are read again from them. Behind the name of the
command every word is one item: an option with its value in the same word, or one without a
value. Items can come in any order, and more detail can be asked for anywhere among them,
because the state that they leave shows their order only in the order in which it is kept. -/
namespace MethodLines.CommandLine

inductive Item where
  | setting (setting : Setting) (value : Text)
  | detail
  | failFast
  | sequential
  | plain
deriving DecidableEq

namespace Item

def word : Item → Text
  | .setting .input value => "--input=" ++ value
  | .setting .format value => "--format=" ++ value
  | .setting .output value => "--output=" ++ value
  | .detail => "-v"
  | .failFast => "--fail-fast"
  | .sequential => "--no-parallel"
  | .plain => "--plain"

def setting? : Item → Option (Setting × Text)
  | .setting s value => some (s, value)
  | _ => none

def switch? : Item → Option Switch
  | .failFast => some .failFast
  | .sequential => some .sequential
  | .plain => some .plain
  | _ => none

end Item

/-- The options that are set, in one order of many. -/
def items (o : Options) : List Item :=
  o.input.toList.map (.setting .input) ++
    o.format.toList.map (fun format => .setting .format format.name) ++
    o.output.toList.map (.setting .output) ++
    (if o.failFast then [.failFast] else []) ++
    (if o.sequential then [.sequential] else []) ++
    (if o.plain then [.plain] else [])

/-- The words for signatures. Behind two dashes they may look like anything. -/
def signatureWords (signatures : List Text) : List Text :=
  if signatures = [] then [] else "--" :: signatures

/-- Items that can be asked for together: each option once, and with a value that it takes. -/
structure Admissible (items : List Item) : Prop where
  switches : (items.filterMap Item.switch?).Nodup
  settings : ((items.filterMap Item.setting?).map Prod.fst).Nodup
  valid : ∀ s ∈ items.filterMap Item.setting?, isValid s.1 s.2 = true

/-- What has been read of some items, the latest first. -/
def State.ofItems (items : List Item) : State where
  verbosity := min (items.count .detail) verbosityLimit
  switches := items.filterMap Item.switch?
  settings := (items.filterMap Item.setting?).reverse

variable {v : Vocabulary} {st next : State} {word name value : Text} {rest : List Text}

theorem ofText_long (name value : Text) (unbroken : '=' ∉ name) :
    Word.ofText ('-' :: '-' :: (name ++ '=' :: value)) = .long name (some value) := by
  have before : ∀ c ∈ name, decide (c ≠ '=') = true := by
    intro c member
    have other : c ≠ '=' := by
      rintro rfl
      exact unbroken member
    simpa using other
  have split : Word.ofText ('-' :: '-' :: (name ++ '=' :: value)) =
      .long ((name ++ '=' :: value).takeWhile (· ≠ '='))
        (if '=' ∈ name ++ '=' :: value then
          some ((name ++ '=' :: value).dropWhile (· ≠ '=')).tail else none) := by
    cases name <;> rfl
  rw [split, List.takeWhile_append_of_pos before, List.dropWhile_append_of_pos before]
  simp

theorem readWords_switch {s : Switch} (form : Word.ofText word = .long name none)
    (known : v.long? name = some (.switch s)) (switched : st.switch s = .ok next) :
    readWords v false st (word :: rest) = readWords v false next rest := by
  rw [readWords, if_neg (by simp), form]
  simp only [State.long, known, switched, bind, Except.bind]

theorem readWords_setting {s : Setting} (form : Word.ofText word = .long name (some value))
    (known : v.long? name = some (.setting s)) (attached : st.attach s value = .ok next) :
    readWords v false st (word :: rest) = readWords v false next rest := by
  rw [readWords, if_neg (by simp), form]
  simp only [State.long, known, attached, bind, Except.bind]

theorem settle_ok (settled : st.pending = none) : st.settle = .ok st := by
  rw [State.settle, settled]

/-- The options without a value that can be given once. -/
theorem switch_ok {s : Switch} (settled : st.pending = none) (fresh : s ∉ st.switches)
    (option : s = .failFast ∨ s = .sequential ∨ s = .plain) :
    st.switch s = .ok { st with switches := s :: st.switches } := by
  rcases option with rfl | rfl | rfl
  all_goals
    simp only [State.switch, settle_ok settled, bind, Except.bind, if_neg fresh]
    rfl

theorem attach_ok {s : Setting} (settled : st.pending = none)
    (fresh : st.settings.lookup s = none) (valid : isValid s value = true) :
    st.attach s value = .ok { st with settings := st.settings ++ [(s, value)] } := by
  simp only [State.attach, settle_ok settled, bind, Except.bind]
  simp [State.settle, fresh, valid, settled]

variable {item : Item} {done todo : List Item}

theorem Admissible.switch_fresh {s : Switch} (admissible : Admissible (item :: done))
    (asked : item.switch? = some s) : s ∉ (State.ofItems done).switches := by
  have distinct := admissible.switches
  rw [List.filterMap_cons_some asked, List.nodup_cons] at distinct
  exact distinct.1

theorem Admissible.setting_fresh {s : Setting}
    (admissible : Admissible (.setting s value :: done)) :
    (State.ofItems done).settings.lookup s = none := by
  have distinct := admissible.settings
  rw [List.filterMap_cons_some (by rfl : Item.setting? (.setting s value) = some (s, value)),
    List.map_cons, List.nodup_cons] at distinct
  rw [List.lookup_eq_none_iff]
  intro earlier member
  rw [State.ofItems, List.mem_reverse] at member
  have other : earlier.1 ≠ s :=
    ne_of_mem_of_not_mem (List.mem_map_of_mem (f := Prod.fst) member) distinct.1
  simpa using Ne.symm other

theorem ofItems_setting (s : Setting) (value : Text) (done : List Item) :
    State.ofItems (.setting s value :: done) = { State.ofItems done with
      settings := (State.ofItems done).settings ++ [(s, value)] } := by
  simp [State.ofItems, List.filterMap_cons, Item.switch?, Item.setting?]

theorem ofItems_detail (done : List Item) :
    State.ofItems (.detail :: done) = { State.ofItems done with
      verbosity := min ((State.ofItems done).verbosity + 1) verbosityLimit } := by
  have counted : min (done.count .detail + 1) verbosityLimit =
      min (min (done.count .detail) verbosityLimit + 1) verbosityLimit := by omega
  simpa [State.ofItems, List.filterMap_cons, Item.switch?, Item.setting?] using counted

/-- One word behind the command, whatever follows it. -/
theorem readWords_item (admissible : Admissible (item :: done)) (rest : List Text) :
    readWords .parse false (.ofItems done) (item.word :: rest) =
      readWords .parse false (.ofItems (item :: done)) rest := by
  cases item with
  | detail =>
    rw [ofItems_detail]
    rfl
  | failFast =>
    have form : Word.ofText Item.failFast.word = .long "fail-fast" none := rfl
    exact readWords_switch form rfl (switch_ok rfl (admissible.switch_fresh rfl) (by simp))
  | sequential =>
    have form : Word.ofText Item.sequential.word = .long "no-parallel" none := rfl
    exact readWords_switch form rfl (switch_ok rfl (admissible.switch_fresh rfl) (by simp))
  | plain =>
    have form : Word.ofText Item.plain.word = .long "plain" none := rfl
    exact readWords_switch form rfl (switch_ok rfl (admissible.switch_fresh rfl) (by simp))
  | setting s value =>
    have valid : isValid s value = true := admissible.valid (s, value) (by simp [Item.setting?])
    have attached : (State.ofItems done).attach s value =
        .ok (.ofItems (.setting s value :: done)) := by
      rw [ofItems_setting]
      exact attach_ok rfl admissible.setting_fresh valid
    cases s with
    | input =>
      have form : Word.ofText (Item.setting .input value).word = .long "input" (some value) :=
        ofText_long "input" value (by decide)
      exact readWords_setting form rfl attached
    | format =>
      have form : Word.ofText (Item.setting .format value).word = .long "format" (some value) :=
        ofText_long "format" value (by decide)
      exact readWords_setting form rfl attached
    | output =>
      have form : Word.ofText (Item.setting .output value).word = .long "output" (some value) :=
        ofText_long "output" value (by decide)
      exact readWords_setting form rfl attached

theorem Admissible.perm {items asked : List Item} (admissible : Admissible items)
    (arranged : asked.Perm items) : Admissible asked where
  switches := (arranged.filterMap _).nodup_iff.mpr admissible.switches
  settings := ((arranged.filterMap _).map _).nodup_iff.mpr admissible.settings
  valid s member := admissible.valid s ((arranged.filterMap _).mem_iff.mp member)

theorem Admissible.sublist {items kept : List Item} (admissible : Admissible items)
    (within : kept.Sublist items) : Admissible kept where
  switches := admissible.switches.sublist (within.filterMap _)
  settings := admissible.settings.sublist ((within.filterMap _).map _)
  valid s member := admissible.valid s ((within.filterMap _).subset member)

/-- The words of any number of items. -/
theorem readWords_items (admissible : Admissible (todo ++ done)) (rest : List Text) :
    readWords .parse false (.ofItems done) (todo.map Item.word ++ rest) =
      readWords .parse false (.ofItems (todo.reverse ++ done)) rest := by
  induction todo generalizing done with
  | nil => rfl
  | cons item todo ih =>
    have moved : Admissible (todo ++ item :: done) := admissible.perm List.perm_middle
    have started : Admissible (item :: done) := moved.sublist (List.sublist_append_right _ _)
    rw [List.map_cons, List.cons_append, readWords_item started, ih moved, List.reverse_cons,
      List.append_assoc, List.singleton_append]

theorem readWords_signatures (settled : st.pending = none) (signatures : List Text) :
    readWords .parse true st signatures =
      .ok { st with signatures := st.signatures ++ signatures } := by
  induction signatures generalizing st with
  | nil => rw [readWords, settle_ok settled, List.append_nil]
  | cons t signatures ih =>
    have step : readWords .parse true st (t :: signatures) =
        readWords .parse true { st with signatures := st.signatures ++ [t] } signatures := by
      rw [readWords, if_pos rfl]
      simp only [State.signature, settle_ok settled, bind, Except.bind, pure, Except.pure]
      rfl
    rw [step, ih (by exact settled)]
    simp

theorem readWords_signatureWords (settled : st.pending = none) (signatures : List Text) :
    readWords .parse false st (signatureWords signatures) =
      .ok { st with signatures := st.signatures ++ signatures } := by
  unfold signatureWords
  split
  · rename_i absent
    subst absent
    rw [readWords, settle_ok settled, List.append_nil]
  · exact readWords_signatures settled signatures

/-- With no repeated key, the entry of a key is found wherever it stands. -/
theorem lookup_eq_some_iff {l : List (Setting × Text)} (distinct : (l.map Prod.fst).Nodup)
    {key : Setting} : l.lookup key = some value ↔ (key, value) ∈ l := by
  induction l with
  | nil => simp
  | cons p l ih =>
    rw [List.map_cons, List.nodup_cons] at distinct
    rw [List.lookup_cons, List.mem_cons]
    cases found : key == p.1 with
    | true =>
      obtain rfl : key = p.1 := eq_of_beq found
      have absent : (p.1, value) ∉ l := fun later =>
        distinct.1 (List.mem_map.mpr ⟨(p.1, value), later, rfl⟩)
      rw [or_iff_left absent]
      simp [Prod.ext_iff, eq_comm]
    | false =>
      have other : (key, value) ≠ p := by
        rintro rfl
        simp at found
      simpa [other] using ih distinct.2

theorem lookup_perm {l l' : List (Setting × Text)} (arranged : l.Perm l')
    (distinct : (l.map Prod.fst).Nodup) (key : Setting) : l.lookup key = l'.lookup key := by
  have distinct' : (l'.map Prod.fst).Nodup := (arranged.map _).nodup_iff.mp distinct
  ext value
  rw [lookup_eq_some_iff distinct, lookup_eq_some_iff distinct', arranged.mem_iff]

variable {o : Options} {k : Nat} {asked : List Item}

/-- The options with a value that are set. -/
def settingsOf (o : Options) : List (Setting × Text) :=
  o.input.toList.map (Setting.input, ·) ++
    o.format.toList.map (fun format => (Setting.format, format.name)) ++
    o.output.toList.map (Setting.output, ·)

def switchesOf (o : Options) : List Switch :=
  (if o.failFast then [.failFast] else []) ++ (if o.sequential then [.sequential] else []) ++
    (if o.plain then [.plain] else [])

/-- Asking for more detail sets no option. -/
theorem filterMap_details {α : Type} {ask : Item → Option α} (silent : ask .detail = none)
    (items : List Item) (k : Nat) :
    (items ++ List.replicate k Item.detail).filterMap ask = items.filterMap ask := by
  have none_asked : (List.replicate k Item.detail).filterMap ask = [] := by simp [silent]
  rw [List.filterMap_append, none_asked, List.append_nil]

theorem filterMap_setting_items (o : Options) (k : Nat) :
    (items o ++ List.replicate k Item.detail).filterMap Item.setting? = settingsOf o := by
  rw [filterMap_details rfl]
  rcases o with ⟨_, _ | _, _ | _, _ | _, _ | _, _ | _, _ | _⟩ <;> rfl

theorem filterMap_switch_items (o : Options) (k : Nat) :
    (items o ++ List.replicate k Item.detail).filterMap Item.switch? = switchesOf o := by
  rw [filterMap_details rfl]
  rcases o with ⟨_, _ | _, _ | _, _ | _, _ | _, _ | _, _ | _⟩ <;> rfl

theorem count_detail_items (o : Options) (k : Nat) :
    (items o ++ List.replicate k Item.detail).count .detail = k := by
  have none_asked : (items o).count .detail = 0 := by
    rcases o with ⟨_, _ | _, _ | _, _ | _, _ | _, _ | _, _ | _⟩ <;> rfl
  rw [List.count_append, none_asked, List.count_replicate_self, Nat.zero_add]

theorem nodup_settingsOf (o : Options) : ((settingsOf o).map Prod.fst).Nodup := by
  rcases o with ⟨_, _ | _, _ | _, _ | _, _, _, _⟩ <;> simp [settingsOf]

theorem nodup_switchesOf (o : Options) : (switchesOf o).Nodup := by
  unfold switchesOf
  cases o.failFast <;> cases o.sequential <;> cases o.plain <;> decide

theorem isValid_settingsOf (input : o.input ≠ some []) (output : o.output ≠ some [])
    {s : Setting × Text} (member : s ∈ settingsOf o) : isValid s.1 s.2 = true := by
  simp only [settingsOf, List.mem_append, List.mem_map, Option.mem_toList] at member
  rcases member with (⟨path, given, rfl⟩ | ⟨format, -, rfl⟩) | ⟨path, given, rfl⟩
  · cases path with
    | nil => exact absurd given input
    | cons => rfl
  · rw [isValid, Format.ofName?_name]
    rfl
  · cases path with
    | nil => exact absurd given output
    | cons => rfl

theorem admissible_items (input : o.input ≠ some []) (output : o.output ≠ some []) (k : Nat) :
    Admissible (items o ++ List.replicate k .detail) where
  switches := by
    rw [filterMap_switch_items]
    exact nodup_switchesOf o
  settings := by
    rw [filterMap_setting_items]
    exact nodup_settingsOf o
  valid s member := by
    rw [filterMap_setting_items] at member
    exact isValid_settingsOf input output member

theorem lookup_settingsOf (o : Options) :
    (settingsOf o).lookup .input = o.input ∧
      (settingsOf o).lookup .format = o.format.map Format.name ∧
      (settingsOf o).lookup .output = o.output := by
  rcases o with ⟨_, _ | _, _ | _, _ | _, _, _, _⟩ <;> exact ⟨rfl, rfl, rfl⟩

theorem mem_switchesOf (o : Options) :
    (Switch.failFast ∈ switchesOf o ↔ o.failFast) ∧
      (Switch.sequential ∈ switchesOf o ↔ o.sequential) ∧
      (Switch.plain ∈ switchesOf o ↔ o.plain) := by
  unfold switchesOf
  cases o.failFast <;> cases o.sequential <;> cases o.plain <;> decide

/-- The options are those that were set, in whichever order they are kept. -/
theorem options_ok (exclusive : o.signatures = [] ∨ o.input = none)
    (signatures : st.signatures = o.signatures)
    (settings : st.settings.Perm (settingsOf o)) (switches : st.switches.Perm (switchesOf o)) :
    st.options = .ok o := by
  have found (s : Setting) : st.settings.lookup s = (settingsOf o).lookup s :=
    (lookup_perm settings.symm (nodup_settingsOf o) s).symm
  obtain ⟨input, format, output⟩ := lookup_settingsOf o
  obtain ⟨failFast, sequential, plain⟩ := mem_switchesOf o
  have named : (o.format.map Format.name).bind Format.ofName? = o.format := by
    cases o.format with
    | none => rfl
    | some format => exact Format.ofName?_name format
  have apart : (!st.signatures.isEmpty && (st.settings.lookup .input).isSome) = false := by
    rw [signatures, found, input]
    rcases exclusive with absent | absent <;> simp [absent]
  rw [State.options, if_neg (by simp [apart])]
  simp only [found, input, format, output, named, signatures, switches.mem_iff, failFast,
    sequential, plain, Bool.decide_eq_true]

/-- Options that are written as words, in any order and with more detail asked for anywhere
among them, are read again as they are. -/
theorem read_written (o : Options) (k : Nat) (asked : List Item)
    (exclusive : o.signatures = [] ∨ o.input = none)
    (input : o.input ≠ some []) (output : o.output ≠ some [])
    (arranged : asked.Perm (items o ++ List.replicate k .detail)) :
    read ("parse" :: (asked.map Item.word ++ signatureWords o.signatures)) =
      .ok ⟨min k 255, .parse o⟩ := by
  have reversed : asked.reverse.Perm (items o ++ List.replicate k .detail) :=
    asked.reverse_perm.trans arranged
  have admissible : Admissible (asked ++ []) := by
    rw [List.append_nil]
    exact (admissible_items input output k).perm arranged
  have words := readWords_items admissible (signatureWords o.signatures)
  rw [List.append_nil, readWords_signatureWords rfl] at words
  have settings : (State.ofItems asked.reverse).settings.Perm (settingsOf o) := by
    rw [← filterMap_setting_items o k]
    exact (List.reverse_perm _).trans (reversed.filterMap _)
  have switches : (State.ofItems asked.reverse).switches.Perm (switchesOf o) := by
    rw [← filterMap_switch_items o k]
    exact reversed.filterMap _
  have counted : (State.ofItems asked.reverse).verbosity = min k 255 := by
    rw [State.ofItems, reversed.count_eq, count_detail_items]
    rfl
  have options : ({ State.ofItems asked.reverse with
      signatures := (State.ofItems asked.reverse).signatures ++ o.signatures } : State).options =
      .ok o := options_ok exclusive (List.nil_append _) settings switches
  calc read ("parse" :: (asked.map Item.word ++ signatureWords o.signatures))
      = readCommand 0 (asked.map Item.word ++ signatureWords o.signatures) .parse := rfl
    _ = .ok ⟨if (State.ofItems asked.reverse).verbosity = 0 then 0
          else (State.ofItems asked.reverse).verbosity, .parse o⟩ := by
        rw [readCommand, show ({} : State) = State.ofItems [] from rfl, words]
        simp only [bind, Except.bind, options]
        rfl
    _ = .ok ⟨min k 255, .parse o⟩ := by
        rw [counted]
        split
        · rename_i zero
          rw [zero]
        · rfl

/-- Values and signatures that look like options, and a value with an equals sign. -/
theorem read_written_alike :
    read ["parse", "-v", "--output=-v", "--no-parallel", "-v", "--format=json",
        "--", "--plain", ""] =
      .ok ⟨2, .parse
        { signatures := ["--plain", ""], output := some "-v", format := some .json,
          sequential := true }⟩ ∧
    read ["parse", "--fail-fast", "--input=a=b"] =
      .ok ⟨0, .parse { input := some "a=b", failFast := true }⟩ :=
  ⟨read_written
      { signatures := ["--plain", ""], output := some "-v", format := some .json,
        sequential := true } 2
      [.detail, .setting .output "-v", .sequential, .detail, .setting .format "json"]
      (.inr rfl) (by decide) (by decide) (by decide),
    read_written { input := some "a=b", failFast := true } 0
      [.failFast, .setting .input "a=b"] (.inl rfl) (by decide) (by decide) (by decide)⟩

end MethodLines.CommandLine
