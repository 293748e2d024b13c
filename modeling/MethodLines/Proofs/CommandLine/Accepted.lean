import MethodLines.Proofs.CommandLine.Spelling
import MethodLines.Proofs.Outcome

/-! What a command line that is accepted tells. Behind the command every word asks for options,
is the value that one awaits, or is a signature. The options hold what was told, each once, and
signatures are never told together with an input file. -/
namespace MethodLines.CommandLine

open Outcome

/-- The options with a value and the signatures that words tell, in order, behind a word that
awaits the value of an option, or behind none. -/
inductive Told (v : Vocabulary) :
    Option Setting → List Text → List (Setting × Text) → List Text → Prop where
  | done : Told v none [] [] []
  /-- Behind two dashes all words are signatures. -/
  | separator (signatures : List Text) : Told v none ("--" :: signatures) [] signatures
  | option {word : Text} {rest given : List Text} {told others : List (Setting × Text)}
      {awaited : Option Setting} : Asks v word told awaited → Told v awaited rest others given →
      Told v none (word :: rest) (told ++ others) given
  | value {s : Setting} {value : Text} {rest given : List Text} {others : List (Setting × Text)} :
      IsPlain value → Told v none rest others given →
      Told v (some s) (value :: rest) ((s, value) :: others) given
  | signature {word : Text} {rest given : List Text} {others : List (Setting × Text)} :
      IsPlain word → Told v none rest others given →
      Told v none (word :: rest) others (word :: given)

variable {v : Vocabulary} {st next last : State} {words rest given : List Text}
  {word name value t : Text} {told others : List (Setting × Text)} {s : Setting}

def State.awaited (st : State) : Option Setting :=
  match st.pending with
  | some (s, none) => some s
  | _ => none

/-- The options with a value that have come, the one that has not been looked at included. -/
def State.known (st : State) : List (Setting × Text) :=
  match st.pending with
  | some (s, some value) => st.settings ++ [(s, value)]
  | _ => st.settings

/-- Each option stands once among those that have been looked at, with a value that it takes. -/
structure State.Consistent (st : State) : Prop where
  once : (st.settings.map Prod.fst).Nodup
  valid : ∀ s ∈ st.settings, isValid s.1 s.2 = true

theorem State.Consistent.concat (start : st.Consistent) (fresh : st.settings.lookup s = none)
    (valid : isValid s value = true) :
    Consistent { st with settings := st.settings ++ [(s, value)], pending := none } where
  once := by
    have absent : s ∉ st.settings.map Prod.fst := by
      intro listed
      obtain ⟨earlier, member, same⟩ := List.mem_map.mp listed
      have other := List.lookup_eq_none_iff.mp fresh earlier member
      simp [same] at other
    rw [List.map_append, List.map_singleton, List.nodup_append]
    refine ⟨start.once, List.nodup_singleton s, ?_⟩
    intro earlier listed again member
    rw [List.mem_singleton.mp member]
    exact ne_of_mem_of_not_mem listed absent
  valid p member := by
    rcases List.mem_append.mp member with earlier | last
    · exact start.valid p earlier
    · rw [List.mem_singleton.mp last]
      exact valid

structure Settled (st next : State) : Prop where
  awaited : st.awaited = none
  settings : next.settings = st.known
  signatures : next.signatures = st.signatures
  pending : next.pending = none
  consistent : st.Consistent → next.Consistent

theorem settle_sound (looked : st.settle = .ok next) : Settled st next := by
  unfold State.settle at looked
  split at looked
  · rename_i none_pending
    cases looked
    exact ⟨by simp [State.awaited, none_pending], by simp [State.known, none_pending], rfl,
      none_pending, id⟩
  · cases looked
  · rename_i s value pending
    split at looked
    · cases looked
    · rename_i fresh
      split at looked
      · rename_i valid
        cases looked
        have absent : st.settings.lookup s = none := Option.not_isSome_iff_eq_none.mp fresh
        exact ⟨by simp [State.awaited, pending], by simp [State.known, pending], rfl, rfl,
          fun start => start.concat absent valid⟩
      · cases looked

structure Adds (told : List (Setting × Text)) (given : List Text) (st next : State) : Prop where
  known : next.known = st.known ++ told
  signatures : next.signatures = st.signatures ++ given
  consistent : st.Consistent → next.Consistent

theorem Adds.trans {middle : State} {more : List Text} (first : Adds told given st middle)
    (second : Adds others more middle next) : Adds (told ++ others) (given ++ more) st next where
  known := by rw [second.known, first.known, List.append_assoc]
  signatures := by rw [second.signatures, first.signatures, List.append_assoc]
  consistent start := second.consistent (first.consistent start)

/-- What a word adds that stands where no value is awaited, and what is awaited behind it. -/
structure Follows (st : State) (told : List (Setting × Text)) (given : List Text)
    (awaited : Option Setting) (next : State) : Prop extends Adds told given st next where
  settled : st.awaited = none
  awaits : next.awaited = awaited

/-- Words that tell no value leave what has been looked at as it is. -/
theorem Settled.follows {middle : State} {awaited : Option Setting} (settled : Settled st middle)
    (settings : next.settings = middle.settings)
    (signatures : next.signatures = middle.signatures ++ given)
    (pending : next.pending = awaited.map fun s => (s, none)) :
    Follows st [] given awaited next where
  known := by
    have looked : next.known = next.settings := by
      cases awaited <;> simp [State.known, pending]
    rw [looked, settings, settled.settings, List.append_nil]
  signatures := by rw [signatures, settled.signatures]
  consistent start := by
    obtain ⟨once, valid⟩ := settled.consistent start
    rw [← settings] at once valid
    exact ⟨once, valid⟩
  settled := settled.awaited
  awaits := by cases awaited <;> simp [State.awaited, pending]

theorem Settled.adds (settled : Settled st next) : Adds [] [] st next := by
  have follows : Follows st [] [] none next :=
    settled.follows rfl (List.append_nil _).symm settled.pending
  exact follows.toAdds

theorem switch_sound {s : Switch} (switched : st.switch s = .ok next) :
    Follows st [] [] none next := by
  obtain ⟨middle, looked, kept⟩ := bind_ok_iff.mp switched
  have settled := settle_sound looked
  have follows (switches : List Switch) (verbosity : Nat) :
      Follows st [] [] none { middle with switches := switches, verbosity := verbosity } :=
    settled.follows rfl (List.append_nil _).symm settled.pending
  cases s with
  | verbose =>
    cases kept
    exact follows _ _
  | help => cases kept
  | version => cases kept
  | force | failFast | sequential | plain =>
    simp only at kept
    split at kept
    · cases kept
    · cases kept
      exact follows _ _

theorem attach_sound (attached : st.attach s value = .ok next) :
    Follows st [(s, value)] [] none next := by
  obtain ⟨middle, looked, again⟩ := bind_ok_iff.mp attached
  have first := settle_sound looked
  have second := settle_sound again
  have known : next.known = next.settings := by simp [State.known, second.pending]
  exact
    { known := by rw [known, second.settings, ← first.settings]; rfl
      signatures := by rw [second.signatures, List.append_nil]; exact first.signatures
      consistent := fun start =>
        second.consistent ⟨(first.consistent start).once, (first.consistent start).valid⟩
      settled := first.awaited
      awaits := by simp [State.awaited, second.pending] }

theorem await_sound (waiting : st.await s = .ok next) : Follows st [] [] (some s) next := by
  obtain ⟨middle, looked, kept⟩ := bind_ok_iff.mp waiting
  cases kept
  exact (settle_sound looked).follows rfl (List.append_nil _).symm rfl

theorem signature_sound (read : st.signature t = .ok next) : Follows st [] [t] none next := by
  obtain ⟨middle, looked, kept⟩ := bind_ok_iff.mp read
  cases kept
  exact (settle_sound looked).follows rfl rfl (settle_sound looked).pending

/-- A state goes on to the next by a word that asks for options. -/
def OptionStep (v : Vocabulary) (st : State) (word : Text) (next : State) : Prop :=
  ∃ told awaited, Asks v word told awaited ∧ Follows st told [] awaited next

theorem long_sound {form : Option Text} (spelled : Word.ofText word = .long name form)
    (read : st.long v name form = .ok next) : OptionStep v st word next := by
  have written := form_ofText word
  rw [spelled] at written
  unfold State.long at read
  split at read
  · cases read
  · cases read
  · rename_i known
    obtain ⟨letter, listed⟩ := exists_of_long?_switch known
    cases written
    exact ⟨[], none, .switches (.long listed), switch_sound read⟩
  · rename_i s value known
    obtain ⟨letter, listed⟩ := exists_of_long?_setting known
    cases written
    exact ⟨[(s, value)], none, .attached (.equals (.long listed)), attach_sound read⟩
  · rename_i s known
    obtain ⟨letter, listed⟩ := exists_of_long?_setting known
    cases written
    exact ⟨[], some s, .awaiting (.long listed), await_sound read⟩

/-- Letters of one word, some of which may have been read before. -/
theorem letters_sound {front letters : Text} (switches : ∀ c ∈ front, SwitchLetter v c)
    (read : st.short v letters = .ok next) :
    letters = [] ∧ next = st ∨ OptionStep v st ('-' :: (front ++ letters)) next := by
  induction letters generalizing st front with
  | nil =>
    cases read
    exact Or.inl ⟨rfl, rfl⟩
  | cons letter rest ih =>
    right
    rw [State.short] at read
    split at read
    · cases read
    · rename_i s known
      obtain ⟨middle, switched, others⟩ := bind_ok_iff.mp read
      have first := switch_sound switched
      have further : ∀ c ∈ front ++ [letter], SwitchLetter v c := by
        intro c member
        rcases List.mem_append.mp member with earlier | last
        · exact switches c earlier
        · rw [List.mem_singleton.mp last]
          exact switchLetter_of_short? known
      rcases ih further others with ⟨rfl, rfl⟩ | ⟨told, awaited, asks, second⟩
      · exact ⟨[], none, .switches (.short (by simp) further), first⟩
      · rw [List.append_assoc, List.singleton_append] at asks
        exact ⟨told, awaited, asks,
          ⟨first.toAdds.trans second.toAdds, first.settled, second.awaits⟩⟩
    · rename_i s known
      obtain ⟨name, listed⟩ := exists_of_short?_setting known
      split at read
      · refine ⟨[], some s, .awaiting (.short switches listed), await_sound read⟩
      · rename_i value
        have equals : ValueWord v s value ('-' :: (front ++ [letter]) ++ '=' :: value) :=
          .equals (.short switches listed)
        refine ⟨[(s, value)], none, .attached ?_, attach_sound read⟩
        simpa using equals
      · rename_i filled other
        refine ⟨[(s, rest)], none, .attached (.joined switches listed filled ?_),
          attach_sound read⟩
        intro equals
        obtain ⟨value, rfl⟩ := List.head?_eq_some_iff.mp equals
        exact other value rfl

theorem short_sound {letters : Text} (spelled : Word.ofText word = .short letters)
    (read : st.short v letters = .ok next) : OptionStep v st word next := by
  have written := form_ofText word
  rw [spelled] at written
  cases written with
  | short letters filled =>
    have none_in_front : ∀ c ∈ ([] : Text), SwitchLetter v c := List.forall_mem_nil _
    exact (letters_sound none_in_front read).resolve_left fun none_left => filled none_left.1

/-- Words lead from a state to one that has looked at all they tell. -/
structure Leads (v : Vocabulary) (st : State) (words : List Text) (last : State) : Prop where
  ended : last.pending = none
  reads : ∃ told given, Told v st.awaited words told given ∧ Adds told given st last

namespace Leads

variable {middle : State}

theorem done (settled : Settled st last) : Leads v st [] last :=
  ⟨settled.pending, [], [], settled.awaited ▸ .done, settled.adds⟩

theorem option (step : OptionStep v st word middle) (others : Leads v middle rest last) :
    Leads v st (word :: rest) last := by
  obtain ⟨told, awaited, asks, first⟩ := step
  obtain ⟨ended, more, given, reads, second⟩ := others
  rw [first.awaits] at reads
  refine ⟨ended, told ++ more, given, ?_, first.toAdds.trans second⟩
  rw [first.settled]
  exact .option asks reads

theorem awaited (plain : IsPlain t) (pending : st.pending = some (s, none))
    (others : Leads v { st with pending := some (s, some t) } rest last) :
    Leads v st (t :: rest) last := by
  have first : Adds [(s, t)] [] st { st with pending := some (s, some t) } :=
    ⟨by simp [State.known, pending], by simp, fun start => ⟨start.once, start.valid⟩⟩
  have awaited : st.awaited = some s := by simp [State.awaited, pending]
  obtain ⟨ended, told, given, reads, second⟩ := others
  refine ⟨ended, (s, t) :: told, given, ?_, first.trans second⟩
  rw [awaited]
  exact .value plain reads

theorem signature (plain : IsPlain t) (first : Follows st [] [t] none middle)
    (others : Leads v middle rest last) : Leads v st (t :: rest) last := by
  obtain ⟨ended, told, given, reads, second⟩ := others
  rw [first.awaits] at reads
  refine ⟨ended, told, t :: given, ?_, first.toAdds.trans second⟩
  rw [first.settled]
  exact .signature plain reads

end Leads

/-- Behind two dashes every word is a signature. -/
theorem readWords_trailing (read : readWords v true st words = .ok last) :
    st.awaited = none ∧ last.pending = none ∧ Adds [] words st last := by
  induction words generalizing st with
  | nil =>
    rw [readWords] at read
    have settled := settle_sound read
    exact ⟨settled.awaited, settled.pending, settled.adds⟩
  | cons word rest ih =>
    rw [readWords, if_pos rfl] at read
    split at read
    · obtain ⟨middle, added, others⟩ := bind_ok_iff.mp read
      have first := signature_sound added
      obtain ⟨_, pending, second⟩ := ih others
      exact ⟨first.settled, pending, first.toAdds.trans second⟩
    · cases read

theorem readWords_sound (read : readWords v false st words = .ok last) :
    Leads v st words last := by
  induction words generalizing st with
  | nil =>
    rw [readWords] at read
    exact .done (settle_sound read)
  | cons word rest ih =>
    have written := form_ofText word
    rw [readWords, if_neg (by simp)] at read
    cases spelled : Word.ofText word with
    | separator =>
      rw [spelled] at read written
      cases written
      obtain ⟨settled, ended, second⟩ := readWords_trailing read
      exact ⟨ended, [], rest, settled ▸ .separator rest, second⟩
    | long name form =>
      rw [spelled] at read
      obtain ⟨middle, one, others⟩ := bind_ok_iff.mp read
      exact .option (long_sound spelled one) (ih others)
    | short letters =>
      rw [spelled] at read
      obtain ⟨middle, one, others⟩ := bind_ok_iff.mp read
      exact .option (short_sound spelled one) (ih others)
    | plain t =>
      rw [spelled] at read written
      obtain ⟨rfl, plain⟩ : t = word ∧ IsPlain word := by
        cases written with
        | plain _ plain => exact ⟨rfl, plain⟩
      simp only at read
      split at read
      · rename_i s pending
        exact .awaited plain pending (ih read)
      · split at read
        · obtain ⟨middle, one, others⟩ := bind_ok_iff.mp read
          exact .signature plain (signature_sound one) (ih others)
        · cases read

/-- All that words tell is kept, each option with a value that it takes. -/
theorem told_of_readWords (read : readWords v false {} words = .ok last) :
    Told v none words last.settings last.signatures ∧ last.Consistent := by
  obtain ⟨ended, told, given, reads, adds⟩ := readWords_sound read
  have settings : last.settings = told := by
    have known : last.known = last.settings := by simp [State.known, ended]
    rw [← known, adds.known]
    rfl
  have signatures : last.signatures = given := adds.signatures
  rw [settings, signatures]
  exact ⟨reads, adds.consistent ⟨List.nodup_nil, List.forall_mem_nil _⟩⟩

variable {k k' : Nat} {o : Options}

theorem eq_of_ofText?_parse (named : CommandName.ofText? word = some .parse) : word = "parse" := by
  unfold CommandName.ofText? at named
  split at named
  · assumption
  · split at named
    · cases named
    · split at named <;> cases named

theorem readCommand_sound {name : CommandName}
    (accepted : readCommand k words name = .ok ⟨k', .parse o⟩) :
    name = .parse ∧ ∃ last, readWords .parse false {} words = .ok last ∧ last.options = .ok o := by
  cases name with
  | parse =>
    obtain ⟨last, read, rest⟩ := bind_ok_iff.mp accepted
    obtain ⟨options, kept, same⟩ := bind_ok_iff.mp rest
    cases same
    exact ⟨rfl, last, read, kept⟩
  | setUp =>
    obtain ⟨last, read, same⟩ := bind_ok_iff.mp accepted
    cases same
  | help =>
    unfold readCommand at accepted
    dsimp only at accepted
    split at accepted <;> cases accepted

/-- A command line with nothing in front of the command but words for options without a value,
and with words behind it that are read as the options. -/
def Calls (words : List Text) (o : Options) : Prop :=
  ∃ front rest last, words = front ++ ("parse" : Text) :: rest ∧
    (∀ word ∈ front, SwitchWord .top word) ∧
    readWords .parse false {} rest = .ok last ∧ last.options = .ok o

theorem Calls.option (step : OptionStep .top st word next) (called : Calls words o) :
    Calls (word :: words) o := by
  obtain ⟨told, awaited, asks, _⟩ := step
  obtain ⟨front, rest, last, rfl, switches, read⟩ := called
  exact ⟨word :: front, rest, last, rfl,
    List.forall_mem_cons.mpr ⟨switchWord_of_asks rfl asks, switches⟩, read⟩

theorem readTop_sound {trailing : Bool}
    (accepted : readTop trailing st words = .ok ⟨k, .parse o⟩) : Calls words o := by
  induction words generalizing st trailing with
  | nil => cases trailing <;> cases accepted
  | cons word rest ih =>
    cases trailing with
    | true => cases accepted
    | false =>
      unfold readTop at accepted
      split at accepted
      · rename_i name named
        obtain ⟨rfl, last, read⟩ := readCommand_sound accepted
        obtain rfl := eq_of_ofText?_parse named
        exact ⟨[], rest, last, rfl, List.forall_mem_nil _, read⟩
      · split at accepted
        · cases rest <;> cases accepted
        · rename_i name form spelled
          obtain ⟨middle, one, others⟩ := bind_ok_iff.mp accepted
          exact .option (long_sound spelled one) (ih others)
        · rename_i letters spelled
          obtain ⟨middle, one, others⟩ := bind_ok_iff.mp accepted
          exact .option (short_sound spelled one) (ih others)
        · cases accepted

/-- Signatures and an input file exclude each other, and both are kept. -/
theorem options_sound (accepted : st.options = .ok o) :
    (o.signatures = [] ∨ o.input = none) ∧ o.signatures = st.signatures ∧
      o.input = st.settings.lookup .input ∧ o.output = st.settings.lookup .output := by
  unfold State.options at accepted
  split at accepted
  · cases accepted
  · rename_i apart
    cases accepted
    refine ⟨?_, rfl, rfl, rfl⟩
    by_cases none_given : st.signatures = []
    · exact Or.inl none_given
    · right
      rw [Bool.and_eq_true, not_and, Bool.not_eq_true', List.isEmpty_eq_false_iff] at apart
      exact Option.not_isSome_iff_eq_none.mp (apart none_given)

theorem State.Consistent.lookup_ne_nil (kept : st.Consistent)
    (path : s = .input ∨ s = .output) : st.settings.lookup s ≠ some [] := by
  intro empty
  have valid := kept.valid _ ((lookup_eq_some_iff kept.once).mp empty)
  rcases path with rfl | rfl <;> simp [isValid] at valid

/-- Where a command line is accepted, the options do not hold an input file beside signatures,
and neither the input nor the output is an empty path. The options are what the words tell:
those in front of the command ask for no value, and each one behind it counts, so that an input
file is kept in whatever spelling and wherever it stands. -/
theorem read_keeps_input (accepted : read words = .ok ⟨k, .parse o⟩) :
    (o.signatures = [] ∨ o.input = none) ∧ o.input ≠ some [] ∧ o.output ≠ some [] ∧
      ∃ front rest told, words = front ++ ("parse" : Text) :: rest ∧
        (∀ word ∈ front, SwitchWord .top word) ∧ Told .parse none rest told o.signatures ∧
        (∀ path, (.input, path) ∈ told ↔ o.input = some path) ∧
        ∀ path, (.output, path) ∈ told ↔ o.output = some path := by
  obtain ⟨front, rest, last, rfl, switches, behind, options⟩ := readTop_sound accepted
  obtain ⟨exclusive, signatures, input, output⟩ := options_sound options
  obtain ⟨reads, kept⟩ := told_of_readWords behind
  refine ⟨exclusive, ?_, ?_, front, rest, last.settings, rfl, switches, signatures ▸ reads, ?_, ?_⟩
  · rw [input]
    exact kept.lookup_ne_nil (Or.inl rfl)
  · rw [output]
    exact kept.lookup_ne_nil (Or.inr rfl)
  · intro path
    rw [input, lookup_eq_some_iff kept.once]
  · intro path
    rw [output, lookup_eq_some_iff kept.once]

/-- Detail in front of the command and in one word with the input, and a dash as the value of
the output. -/
theorem read_keeps_input_spelled :
    let o : Options := { input := some "in", output := some "-" }
    read ["--verbose", "parse", "-vi=in", "-o", "-", "--"] = .ok ⟨1, .parse o⟩ ∧
      (o.signatures = [] ∨ o.input = none) ∧ o.input ≠ some [] ∧ o.output ≠ some [] ∧
      ∃ front rest told,
        (["--verbose", "parse", "-vi=in", "-o", "-", "--"] : List Text) =
          front ++ ("parse" : Text) :: rest ∧
        (∀ word ∈ front, SwitchWord .top word) ∧ Told .parse none rest told [] ∧
        (Setting.input, ("in" : Text)) ∈ told ∧ (Setting.output, ("-" : Text)) ∈ told := by
  intro o
  have accepted : read ["--verbose", "parse", "-vi=in", "-o", "-", "--"] = .ok ⟨1, .parse o⟩ := rfl
  obtain ⟨exclusive, input, output, front, rest, told, split, switches, reads, inputs, outputs⟩ :=
    read_keeps_input accepted
  exact ⟨accepted, exclusive, input, output, front, rest, told, split, switches, reads,
    (inputs "in").mpr rfl, (outputs "-").mpr rfl⟩

end MethodLines.CommandLine
