import Mathlib.Data.List.TakeWhile
import MethodLines.Proofs.CommandLine.Writing

/-! How the words of a command line are spelled. An option has a name or a letter, letters can
share a word, and a value stands in the word of its option or in the next. What a word asks for
is told by its characters and the options that are known, and not by the way it is read. -/
namespace MethodLines.CommandLine

def SwitchLetter (v : Vocabulary) (c : Char) : Prop := ∃ s name, (s, name, some c) ∈ v.switches

inductive SwitchWord (v : Vocabulary) : Text → Prop where
  | long {s : Switch} {name : Text} {letter : Option Char} :
      (s, some name, letter) ∈ v.switches → SwitchWord v ("--" ++ name)
  | short {letters : Text} : letters ≠ [] → (∀ c ∈ letters, SwitchLetter v c) →
      SwitchWord v ('-' :: letters)

/-- Words that name an option with a value, by its name or its letter. Letters of options
without one may stand in front of that. -/
inductive SettingWord (v : Vocabulary) (s : Setting) : Text → Prop where
  | long {name : Text} {letter : Char} : (s, name, letter) ∈ v.settings →
      SettingWord v s ("--" ++ name)
  | short {front name : Text} {letter : Char} : (∀ c ∈ front, SwitchLetter v c) →
      (s, name, letter) ∈ v.settings → SettingWord v s ('-' :: (front ++ [letter]))

/-- Words that name an option and hold its value. Behind a letter the equals sign may be left
out, but if there is one it is no part of the value. -/
inductive ValueWord (v : Vocabulary) (s : Setting) (value : Text) : Text → Prop where
  | equals {word : Text} : SettingWord v s word → ValueWord v s value (word ++ '=' :: value)
  | joined {front name : Text} {letter : Char} : (∀ c ∈ front, SwitchLetter v c) →
      (s, name, letter) ∈ v.settings → value ≠ [] → value.head? ≠ some '=' →
      ValueWord v s value ('-' :: (front ++ letter :: value))

/-- The options that a word tells, and the one whose value has to be the next word. -/
inductive Asks (v : Vocabulary) : Text → List (Setting × Text) → Option Setting → Prop where
  | switches {word : Text} : SwitchWord v word → Asks v word [] none
  | attached {s : Setting} {value word : Text} : ValueWord v s value word →
      Asks v word [(s, value)] none
  | awaiting {s : Setting} {word : Text} : SettingWord v s word → Asks v word [] (some s)

/-- A word that does not look like an option. A single dash does not. -/
def IsPlain (word : Text) : Prop := word.head? = some '-' → word = ['-']

variable {v : Vocabulary} {word name value : Text} {told : List (Setting × Text)} {s : Setting}

theorem SettingWord.some_setting (named : SettingWord v s word) : v.settings ≠ [] := by
  cases named with
  | long listed => exact List.ne_nil_of_mem listed
  | short _ listed => exact List.ne_nil_of_mem listed

theorem ValueWord.some_setting (valued : ValueWord v s value word) : v.settings ≠ [] := by
  cases valued with
  | equals named => exact named.some_setting
  | joined _ listed => exact List.ne_nil_of_mem listed

/-- Where no option has a value, words that are no signatures ask for options without one. -/
theorem switchWord_of_asks {awaited : Option Setting} (none_valued : v.settings = [])
    (asks : Asks v word told awaited) : SwitchWord v word := by
  cases asks with
  | switches asked => exact asked
  | attached valued => exact absurd none_valued valued.some_setting
  | awaiting named => exact absurd none_valued named.some_setting

theorem exists_of_long?_switch {s : Switch} (known : v.long? name = some (.switch s)) :
    ∃ letter, (s, some name, letter) ∈ v.switches := by
  unfold Vocabulary.long? at known
  split at known
  · rename_i entry found
    cases known
    have named : entry.2.1 = some name := by simpa using List.find?_some found
    exact ⟨entry.2.2, named ▸ List.mem_of_find?_eq_some found⟩
  · simp at known

theorem exists_of_long?_setting (known : v.long? name = some (.setting s)) :
    ∃ letter, (s, name, letter) ∈ v.settings := by
  unfold Vocabulary.long? at known
  split at known
  · cases known
  · obtain ⟨entry, found, same⟩ := Option.map_eq_some_iff.mp known
    cases same
    have named : entry.2.1 = name := by simpa using List.find?_some found
    exact ⟨entry.2.2, named ▸ List.mem_of_find?_eq_some found⟩

theorem switchLetter_of_short? {s : Switch} {letter : Char}
    (known : v.short? letter = some (.switch s)) : SwitchLetter v letter := by
  unfold Vocabulary.short? at known
  split at known
  · rename_i entry found
    have lettered : entry.2.2 = some letter := by simpa using List.find?_some found
    exact ⟨entry.1, entry.2.1, lettered ▸ List.mem_of_find?_eq_some found⟩
  · simp at known

theorem exists_of_short?_setting {letter : Char} (known : v.short? letter = some (.setting s)) :
    ∃ name, (s, name, letter) ∈ v.settings := by
  unfold Vocabulary.short? at known
  split at known
  · cases known
  · obtain ⟨entry, found, same⟩ := Option.map_eq_some_iff.mp known
    cases same
    have lettered : entry.2.2 = letter := by simpa using List.find?_some found
    exact ⟨entry.2.1, lettered ▸ List.mem_of_find?_eq_some found⟩

/-- How a word of each form is written. -/
inductive Form : Text → Word → Prop where
  | separator : Form "--" .separator
  | name (name : Text) : Form ("--" ++ name) (.long name none)
  | equals (name value : Text) : Form ("--" ++ name ++ '=' :: value) (.long name (some value))
  | short (letters : Text) : letters ≠ [] → Form ('-' :: letters) (.short letters)
  | plain (word : Text) : IsPlain word → Form word (.plain word)

theorem ofText_name (filled : name ≠ []) (unbroken : '=' ∉ name) :
    Word.ofText ('-' :: '-' :: name) = .long name none := by
  have whole : name.takeWhile (· ≠ '=') = name := by
    rw [List.takeWhile_eq_self_iff]
    intro c member
    have other : c ≠ '=' := by
      rintro rfl
      exact unbroken member
    simpa using other
  rw [Word.ofText, whole, if_neg unbroken]
  exact filled

theorem isPlain_of_forall (other : ∀ c rest, word ≠ '-' :: c :: rest) : IsPlain word := by
  intro dash
  obtain ⟨rest, rfl⟩ := List.head?_eq_some_iff.mp dash
  cases rest with
  | nil => rfl
  | cons c rest => exact absurd rfl (other c rest)

theorem form_ofText (word : Text) : Form word (Word.ofText word) := by
  fun_cases Word.ofText word with
  | case1 => exact .separator
  | case2 t filled =>
    rw [← Word.ofText.eq_2 t filled]
    by_cases divided : '=' ∈ t
    · obtain ⟨name, value, rfl, unbroken⟩ := List.eq_append_cons_of_mem divided
      rw [ofText_long name value unbroken]
      exact .equals name value
    · rw [ofText_name filled divided]
      exact .name t
  | case3 c t => exact .short (c :: t) (by simp)
  | case4 _ _ _ other => exact .plain word (isPlain_of_forall other)

end MethodLines.CommandLine
