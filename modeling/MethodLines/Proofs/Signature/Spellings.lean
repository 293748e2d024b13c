import MethodLines.Proofs.Json.Members
import MethodLines.Proofs.Signature.Encoding

/-! All texts that spell the same parts are decoded alike. -/
namespace MethodLines

open Json Json.Draft Outcome

namespace Json

variable {α β γ : Type} {key v t : Text} {a : α} {decode : Draft → Decoded α}
  {members : List (Text × β)} {m : Text × β}

theorem mem_withKey (member : m ∈ members) (same : m.1 = key) : m ∈ withKey key members :=
  List.mem_filter.mpr ⟨member, decide_eq_true same⟩

theorem eq_of_only {b : β} (only : Only key members b) (member : m ∈ members)
    (same : m.1 = key) : m.2 = b := by
  have found := mem_withKey member same
  rw [show withKey key members = [(key, b)] from only, List.mem_singleton] at found
  rw [found]

theorem withKey_map (f : β → γ) (key : Text) (members : List (Text × β)) :
    withKey key (members.map fun m => (m.1, f m.2)) =
      (withKey key members).map fun m => (m.1, f m.2) := by
  unfold withKey
  rw [List.filter_map]
  rfl

structure Decodes (decode : Draft → Decoded α) (t : Text) (a : α) : Prop where
  reads : Reads t (draft t)
  decoded : decode (draft t) = .ok a

theorem Draft.Reads.decodes {d : Draft} (reads : Reads t d) (decoded : decode d = .ok a) :
    Decodes decode t a := by
  rw [← reads.draft_eq] at decoded reads
  exact ⟨reads, decoded⟩

def drafts (members : List (Text × Text)) : List (Text × Draft) :=
  members.map fun m => (m.1, draft m.2)

def RecordText (members : List (Text × Text)) (t : Text) : Prop :=
  ObjectText (members.map fun m => (.ok m.1, m.2)) t

theorem reads_record {members : List (Text × Text)} (record : RecordText members t)
    (reads : ∀ m ∈ members, Reads m.2 (draft m.2)) :
    Reads t (.object ((drafts members).map fun m => (.ok m.1, m.2)) none) := by
  have all := reads_object record (reads_members fun m member => by
    obtain ⟨m, listed, rfl⟩ := List.mem_map.mp member
    exact reads m listed)
  rw [List.map_map] at all
  rw [drafts, List.map_map]
  exact all

theorem length_withKey_drafts (key : Text) (members : List (Text × Text)) :
    (withKey key (drafts members)).length = (withKey key members).length := by
  rw [drafts, withKey_map, List.length_map]

/-- The members of an object text give this for a field, and can be read so far. -/
structure Supplies (key : Text) (decode : Draft → Decoded α) (members : List (Text × Text))
    (given : Option α) : Prop where
  given : Given key decode (drafts members) given
  reads : ∀ m ∈ members, m.1 = key → Reads m.2 (draft m.2)

theorem supplies_of_only {members : List (Text × Text)} (only : Only key members v)
    (decodes : Decodes decode v a) : Supplies key decode members (some a) := by
  have given : Only key (drafts members) (draft v) := by
    rw [Only, drafts, withKey_map, show withKey key members = [(key, v)] from only]
    rfl
  refine ⟨.present given decodes.decoded, fun m member same => ?_⟩
  rw [eq_of_only only member same]
  exact decodes.reads

theorem supplies_of_lacking {members : List (Text × Text)} (missing : withKey key members = []) :
    Supplies key decode members none := by
  constructor
  · refine .absent ?_
    rw [drafts, withKey_map, missing]
    rfl
  · intro m member same
    exact absurd missing (List.ne_nil_of_mem (mem_withKey member same))

theorem decodes_string {text : Text} (written : StringText (.ok text) t) :
    Decodes toText t text :=
  (reads_string written).decodes rfl

end Json

namespace Argument

variable {a : Argument} {t : Text}

def keys : List Text := ["type", "name"]

/-- How an argument can be written: as an object with its two members in any order and others
anywhere, or as an array. -/
inductive Spelling (a : Argument) : Text → Prop where
  | object {members : List (Text × Text)} {type name t : Text} : RecordText members t →
      Only "type" members type → StringText (.ok a.type) type →
      Only "name" members name → StringText (.ok a.name) name →
      (∀ m ∈ members, m.1 ∉ keys → ValueText m.2) → Spelling a t
  | array {type name t : Text} : ArrayText [type, name] t →
      StringText (.ok a.type) type → StringText (.ok a.name) name → Spelling a t

/-- What the members of an object give for the parts of an argument. -/
structure Gathered (members : List (Text × Draft)) (fields : Fields) : Prop where
  type : Given "type" toText members fields.type
  name : Given "name" toText members fields.name
  others : ∀ m ∈ members, m.1 ∉ keys → m.2.skip = .ok ()

theorem member_ok_iff {f g : Fields} {m : Text × Draft} : Fields.member f m.1 m.2 = .ok g ↔
    Takes "type" toText m f.type g.type ∧ Takes "name" toText m f.name g.name ∧
      (m.1 ∉ keys → m.2.skip = .ok ()) := by
  obtain ⟨key, d⟩ := m
  obtain ⟨type, name⟩ := f
  obtain ⟨type', name'⟩ := g
  have distinct : ("type" : Text) ≠ "name" := by decide
  unfold Fields.member Takes keys
  generalize ("type" : Text) = first, ("name" : Text) = second at distinct ⊢
  by_cases isFirst : key = first
  · simp [isFirst, distinct, bind_ok_iff, pure, Except.pure]
  · by_cases isSecond : key = second
    · simp [isSecond, distinct.symm, bind_ok_iff, pure, Except.pure, and_comm]
    · simp [isFirst, isSecond, bind_ok_iff, ignored_ok_iff, pure, Except.pure, and_comm, and_assoc]

theorem gather_ok_iff {members : List (Text × Draft)} {fields : Fields} :
    gather Fields.member {} (members.map fun m => (.ok m.1, m.2)) none = .ok fields ↔
      Gathered members fields := by
  refine Json.gather_ok_iff ?_ ?_ fields
  · rintro ⟨type, name⟩
    constructor
    · rintro ⟨noType, noName, _⟩
      obtain rfl : type = none := given_nil_iff.mp noType
      obtain rfl : name = none := given_nil_iff.mp noName
      rfl
    · intro nothing
      cases nothing
      exact ⟨given_nil_iff.mpr rfl, given_nil_iff.mpr rfl, by simp⟩
  · intro members m fields
    constructor
    · rintro ⟨type, name, others⟩
      obtain ⟨type', typeBefore, typeTaken⟩ := given_concat_iff.mp type
      obtain ⟨name', nameBefore, nameTaken⟩ := given_concat_iff.mp name
      obtain ⟨front, last⟩ := List.forall_mem_append.mp others
      exact ⟨⟨type', name'⟩, ⟨typeBefore, nameBefore, front⟩,
        member_ok_iff.mpr ⟨typeTaken, nameTaken, last m List.mem_cons_self⟩⟩
    · rintro ⟨known, ⟨type, name, others⟩, taken⟩
      obtain ⟨typeTaken, nameTaken, passed⟩ := member_ok_iff.mp taken
      exact ⟨given_concat_iff.mpr ⟨_, type, typeTaken⟩, given_concat_iff.mpr ⟨_, name, nameTaken⟩,
        List.forall_mem_append.mpr ⟨others, List.forall_mem_singleton.mpr passed⟩⟩

theorem ofDraft_object_iff {members : List (Text × Draft)} :
    ofDraft (.object (members.map fun m => (.ok m.1, m.2)) none) = .ok a ↔
      Gathered members ⟨some a.type, some a.name⟩ := by
  obtain ⟨type, name⟩ := a
  rw [ofDraft, bind_ok_iff]
  constructor
  · rintro ⟨fields, gathered, built⟩
    obtain ⟨_, typeFound, built⟩ := bind_ok_iff.mp built
    obtain ⟨_, nameFound, built⟩ := bind_ok_iff.mp built
    cases built
    rw [gather_ok_iff] at gathered
    rwa [← required_ok_iff.mp typeFound, ← required_ok_iff.mp nameFound]
  · intro gathered
    exact ⟨_, gather_ok_iff.mpr gathered, rfl⟩

/-- However an argument is written, it is decoded as it is. -/
theorem Spelling.decodes (spelling : Spelling a t) : Decodes ofDraft t a := by
  cases spelling with
  | @object members type name _ record onlyType typeText onlyName nameText others =>
    have typeSupplied := supplies_of_only onlyType (decodes_string typeText)
    have nameSupplied := supplies_of_only onlyName (decodes_string nameText)
    have reads : ∀ m ∈ members, Reads m.2 (draft m.2) := by
      intro m member
      by_cases known : m.1 ∈ keys
      · rw [keys, List.mem_cons, List.mem_singleton] at known
        rcases known with same | same
        · exact typeSupplied.reads m member same
        · exact nameSupplied.reads m member same
      · exact (reads_value (others m member known)).1
    have passed : ∀ d ∈ drafts members, d.1 ∉ keys → d.2.skip = .ok () := by
      intro d member unknown
      obtain ⟨m, listed, rfl⟩ := List.mem_map.mp member
      exact (reads_value (others m listed unknown)).2
    exact (reads_record record reads).decodes
      (ofDraft_object_iff.mpr ⟨typeSupplied.given, nameSupplied.given, passed⟩)
  | @array type name _ array typeText nameText =>
    have parts : List.Forall₂ Reads [type, name] [.string (.ok a.type), .string (.ok a.name)] :=
      .cons (reads_string typeText) (.cons (reads_string nameText) .nil)
    exact (reads_array array parts).decodes rfl

theorem reads_of_spellings {arguments : List Argument} {items : List Text}
    (spelled : List.Forall₂ Spelling arguments items) :
    ∀ item ∈ items, Reads item (draft item) := by
  induction spelled with
  | nil => simp
  | cons spelling _ ih => exact List.forall_mem_cons.mpr ⟨spelling.decodes.reads, ih⟩

/-- An object that gives a part of an argument again. -/
def Repeating (t : Text) : Prop :=
  ∃ members key, RecordText members t ∧ (∀ m ∈ members, ValueText m.2) ∧ key ∈ keys ∧
    2 ≤ (withKey key members).length

theorem Repeating.refused (repeating : Repeating t) (a : Argument) : ofDraft (draft t) ≠ .ok a := by
  obtain ⟨members, key, record, values, known, twice⟩ := repeating
  have reads := reads_record record fun m member => (reads_value (values m member)).1
  rw [reads.draft_eq]
  intro decoded
  obtain ⟨type, name, _⟩ := ofDraft_object_iff.mp decoded
  have once : (withKey key (drafts members)).length ≤ 1 := by
    rw [keys, List.mem_cons, List.mem_singleton] at known
    rcases known with rfl | rfl
    · exact type.length_le
    · exact name.length_le
  rw [length_withKey_drafts] at once
  omega

end Argument

namespace Signature

variable {s r : Signature} {t : Text}

def keys : List Text := ["access_modifier", "return_type", "method_name", "arguments"]

def ModifierText : Option Text → Text → Prop
  | none, t => t = "null"
  | some modifier, t => StringText (.ok modifier) t

def ArgumentsText (arguments : List Argument) (t : Text) : Prop :=
  ∃ items, List.Forall₂ Argument.Spelling arguments items ∧ ArrayText items t

/-- A member that may be left out if the value is the default. -/
def Optional {α : Type} (key : Text) (written : α → Text → Prop) (default a : α)
    (members : List (Text × Text)) : Prop :=
  (a = default ∧ withKey key members = []) ∨ ∃ v, Only key members v ∧ written a v

/-- How the parts of a signature can be written: as an object with the members in any order and
others anywhere, where a modifier that there is not and an empty list of arguments can be left
out; or as an array of the four parts. -/
inductive Spelling (s : Signature) : Text → Prop where
  | object {members : List (Text × Text)} {returnType name t : Text} : RecordText members t →
      Optional "access_modifier" ModifierText none s.modifier members →
      Only "return_type" members returnType → StringText (.ok s.returnType) returnType →
      Only "method_name" members name → StringText (.ok s.name) name →
      Optional "arguments" ArgumentsText [] s.arguments members →
      (∀ m ∈ members, m.1 ∉ keys → ValueText m.2) → Spelling s t
  | array {modifier returnType name arguments t : Text} :
      ArrayText [modifier, returnType, name, arguments] t → ModifierText s.modifier modifier →
      StringText (.ok s.returnType) returnType → StringText (.ok s.name) name →
      ArgumentsText s.arguments arguments → Spelling s t

/-- What the members of an object give for the parts of a signature. -/
structure Gathered (members : List (Text × Draft)) (fields : Fields) : Prop where
  modifier : Given "access_modifier" toOptionalText members fields.modifier
  returnType : Given "return_type" toText members fields.returnType
  name : Given "method_name" toText members fields.name
  arguments : Given "arguments" (toList Argument.ofDraft) members fields.arguments
  others : ∀ m ∈ members, m.1 ∉ keys → m.2.skip = .ok ()

theorem member_ok_iff {f g : Fields} {m : Text × Draft} : Fields.member f m.1 m.2 = .ok g ↔
    Takes "access_modifier" toOptionalText m f.modifier g.modifier ∧
      Takes "return_type" toText m f.returnType g.returnType ∧
      Takes "method_name" toText m f.name g.name ∧
      Takes "arguments" (toList Argument.ofDraft) m f.arguments g.arguments ∧
      (m.1 ∉ keys → m.2.skip = .ok ()) := by
  obtain ⟨key, d⟩ := m
  obtain ⟨modifier, returnType, name, arguments⟩ := f
  obtain ⟨modifier', returnType', name', arguments'⟩ := g
  have distinct : keys.Nodup := by decide
  unfold Fields.member Takes
  unfold keys at distinct ⊢
  generalize ("access_modifier" : Text) = first, ("return_type" : Text) = second,
    ("method_name" : Text) = third, ("arguments" : Text) = fourth at distinct ⊢
  simp only [List.nodup_cons, List.mem_cons, List.not_mem_nil, or_false, not_or] at distinct
  obtain ⟨⟨second', third', fourth'⟩, ⟨third'', fourth''⟩, fourth''', _⟩ := distinct
  by_cases isFirst : key = first
  · simp [isFirst, second', third', fourth', bind_ok_iff, pure, Except.pure]
  by_cases isSecond : key = second
  · simp [isSecond, Ne.symm second', third'', fourth'', bind_ok_iff, pure, Except.pure]
    grind
  by_cases isThird : key = third
  · simp [isThird, Ne.symm third', Ne.symm third'', fourth''', bind_ok_iff, pure, Except.pure]
    grind
  by_cases isFourth : key = fourth
  · simp [isFourth, Ne.symm fourth', Ne.symm fourth'', Ne.symm fourth''', bind_ok_iff, pure,
      Except.pure]
    grind
  simp [isFirst, isSecond, isThird, isFourth, bind_ok_iff, ignored_ok_iff, pure, Except.pure]
  grind

theorem gather_ok_iff {members : List (Text × Draft)} {fields : Fields} :
    gather Fields.member {} (members.map fun m => (.ok m.1, m.2)) none = .ok fields ↔
      Gathered members fields := by
  refine Json.gather_ok_iff ?_ ?_ fields
  · rintro ⟨modifier, returnType, name, arguments⟩
    constructor
    · rintro ⟨noModifier, noReturnType, noName, noArguments, _⟩
      obtain rfl : modifier = none := given_nil_iff.mp noModifier
      obtain rfl : returnType = none := given_nil_iff.mp noReturnType
      obtain rfl : name = none := given_nil_iff.mp noName
      obtain rfl : arguments = none := given_nil_iff.mp noArguments
      rfl
    · intro nothing
      cases nothing
      exact ⟨given_nil_iff.mpr rfl, given_nil_iff.mpr rfl, given_nil_iff.mpr rfl,
        given_nil_iff.mpr rfl, by simp⟩
  · intro members m fields
    constructor
    · rintro ⟨modifier, returnType, name, arguments, others⟩
      obtain ⟨_, modifierBefore, modifierTaken⟩ := given_concat_iff.mp modifier
      obtain ⟨_, returnTypeBefore, returnTypeTaken⟩ := given_concat_iff.mp returnType
      obtain ⟨_, nameBefore, nameTaken⟩ := given_concat_iff.mp name
      obtain ⟨_, argumentsBefore, argumentsTaken⟩ := given_concat_iff.mp arguments
      obtain ⟨front, last⟩ := List.forall_mem_append.mp others
      exact ⟨⟨_, _, _, _⟩,
        ⟨modifierBefore, returnTypeBefore, nameBefore, argumentsBefore, front⟩,
        member_ok_iff.mpr ⟨modifierTaken, returnTypeTaken, nameTaken, argumentsTaken,
          last m List.mem_cons_self⟩⟩
    · rintro ⟨known, ⟨modifier, returnType, name, arguments, others⟩, taken⟩
      obtain ⟨modifierTaken, returnTypeTaken, nameTaken, argumentsTaken, passed⟩ :=
        member_ok_iff.mp taken
      exact ⟨given_concat_iff.mpr ⟨_, modifier, modifierTaken⟩,
        given_concat_iff.mpr ⟨_, returnType, returnTypeTaken⟩,
        given_concat_iff.mpr ⟨_, name, nameTaken⟩,
        given_concat_iff.mpr ⟨_, arguments, argumentsTaken⟩,
        List.forall_mem_append.mpr ⟨others, List.forall_mem_singleton.mpr passed⟩⟩

theorem partsOfDraft_object_iff {members : List (Text × Draft)} :
    partsOfDraft (.object (members.map fun m => (.ok m.1, m.2)) none) = .ok s ↔
      ∃ modifier arguments,
        Gathered members ⟨modifier, some s.returnType, some s.name, arguments⟩ ∧
        modifier.getD none = s.modifier ∧ arguments.getD [] = s.arguments := by
  rw [partsOfDraft, bind_ok_iff]
  constructor
  · rintro ⟨⟨modifier, returnType, name, arguments⟩, gathered, built⟩
    obtain ⟨_, returnTypeFound, built⟩ := bind_ok_iff.mp built
    obtain ⟨_, nameFound, built⟩ := bind_ok_iff.mp built
    cases built
    obtain rfl := required_ok_iff.mp returnTypeFound
    obtain rfl := required_ok_iff.mp nameFound
    exact ⟨modifier, arguments, gather_ok_iff.mp gathered, rfl, rfl⟩
  · rintro ⟨modifier, arguments, gathered, modifier_eq, arguments_eq⟩
    refine ⟨_, gather_ok_iff.mpr gathered, ?_⟩
    show Except.ok (⟨modifier.getD none, s.returnType, s.name, arguments.getD []⟩ : Signature) = _
    rw [modifier_eq, arguments_eq]

theorem ModifierText.decodes {modifier : Option Text} (written : ModifierText modifier t) :
    Decodes toOptionalText t modifier := by
  cases modifier with
  | none =>
    obtain rfl : t = "null" := written
    exact reads_null.decodes rfl
  | some modifier => exact (reads_string written).decodes rfl

theorem ArgumentsText.decodes {arguments : List Argument} (written : ArgumentsText arguments t) :
    Decodes (toList Argument.ofDraft) t arguments := by
  obtain ⟨items, spelled, array⟩ := written
  have reads := Argument.reads_of_spellings spelled
  refine (reads_array array (reads_items reads)).decodes ?_
  have decoded : (items.map draft).mapM Argument.ofDraft = .ok arguments := by
    rw [mapM_ok_iff, List.forall₂_map_left_iff]
    exact spelled.flip.imp fun item a spelling => spelling.decodes.decoded
  rw [toList, decoded]
  rfl

theorem supplies_of_optional {α : Type} {key : Text} {written : α → Text → Prop} {default a : α}
    {members : List (Text × Text)} {decode : Draft → Decoded α}
    (optional : Optional key written default a members)
    (decodes : ∀ v, written a v → Decodes decode v a) :
    ∃ given, Supplies key decode members given ∧ given.getD default = a := by
  rcases optional with ⟨rfl, missing⟩ | ⟨v, only, writtenText⟩
  · exact ⟨none, supplies_of_lacking missing, rfl⟩
  · exact ⟨some a, supplies_of_only only (decodes v writtenText), rfl⟩

/-- However the parts are written, they are taken out as they are. -/
theorem Spelling.decodes (spelling : Spelling s t) : Decodes partsOfDraft t s := by
  cases spelling with
  | @object members returnType name _ record modifier onlyReturnType returnTypeText onlyName
      nameText arguments others =>
    obtain ⟨_, modifierSupplied, modifier_eq⟩ :=
      supplies_of_optional modifier fun v written => written.decodes
    have returnTypeSupplied := supplies_of_only onlyReturnType (decodes_string returnTypeText)
    have nameSupplied := supplies_of_only onlyName (decodes_string nameText)
    obtain ⟨_, argumentsSupplied, arguments_eq⟩ :=
      supplies_of_optional arguments fun v written => written.decodes
    have reads : ∀ m ∈ members, Reads m.2 (draft m.2) := by
      intro m member
      by_cases known : m.1 ∈ keys
      · simp only [keys, List.mem_cons, List.not_mem_nil, or_false] at known
        rcases known with same | same | same | same
        · exact modifierSupplied.reads m member same
        · exact returnTypeSupplied.reads m member same
        · exact nameSupplied.reads m member same
        · exact argumentsSupplied.reads m member same
      · exact (reads_value (others m member known)).1
    have passed : ∀ d ∈ drafts members, d.1 ∉ keys → d.2.skip = .ok () := by
      intro d member unknown
      obtain ⟨m, listed, rfl⟩ := List.mem_map.mp member
      exact (reads_value (others m listed unknown)).2
    exact (reads_record record reads).decodes (partsOfDraft_object_iff.mpr
      ⟨_, _, ⟨modifierSupplied.given, returnTypeSupplied.given, nameSupplied.given,
        argumentsSupplied.given, passed⟩, modifier_eq, arguments_eq⟩)
  | @array modifier returnType name arguments _ array modifierText returnTypeText nameText
      argumentsText =>
    have modifierDecodes := modifierText.decodes
    have argumentsDecodes := argumentsText.decodes
    have reads : List.Forall₂ Reads [modifier, returnType, name, arguments]
        [draft modifier, .string (.ok s.returnType), .string (.ok s.name), draft arguments] :=
      .cons modifierDecodes.reads (.cons (reads_string returnTypeText)
        (.cons (reads_string nameText) (.cons argumentsDecodes.reads .nil)))
    refine (reads_array array reads).decodes ?_
    rw [partsOfDraft, partsOfItems, modifierDecodes.decoded]
    show toList Argument.ofDraft (draft arguments) >>= _ = _
    rw [argumentsDecodes.decoded]
    rfl

theorem ofText_padded {d : Draft} (reads : Reads t d) (before after : Blank) :
    ofJsonText (before.val ++ (t ++ after.val)) =
      (partsOfDraft d).mapError .mismatch >>= fun s => s.check.mapError .rejected := by
  have ended : endedText (some after.val) = .ok () := by
    have skipped := skipSpace_append after.property []
    rw [List.append_nil] at skipped
    rw [endedText, Option.getD_some, skipped]
    rfl
  rw [ofJsonText_eq, reads.ofText before after, ended]
  refine bind_congr fun s => ?_
  cases s.check <;> rfl

/-- A list of values, one of which gives a part of an argument again. -/
def RepeatingArguments (t : Text) : Prop :=
  ∃ items, ArrayText items t ∧ (∀ item ∈ items, ValueText item) ∧
    ∃ item ∈ items, Argument.Repeating item

theorem RepeatingArguments.valueText (repeating : RepeatingArguments t) : ValueText t := by
  obtain ⟨items, array, values, _⟩ := repeating
  exact .array array values

theorem RepeatingArguments.refused (repeating : RepeatingArguments t)
    (arguments : List Argument) : toList Argument.ofDraft (draft t) ≠ .ok arguments := by
  obtain ⟨items, array, values, item, listed, repeating⟩ := repeating
  have reads := reads_array array
    (reads_items fun item listed => (reads_value (values item listed)).1)
  rw [reads.draft_eq, toList]
  intro decoded
  obtain ⟨_, decodedItems, _⟩ := bind_ok_iff.mp decoded
  obtain ⟨a, decodedItem⟩ := ok_of_mapM_ok decodedItems (List.mem_map.mpr ⟨item, listed, rfl⟩)
  exact repeating.refused a decodedItem

/-- Objects that stand for no signature: one that repeats a key or lacks a part, and one with an
argument that repeats a key. -/
inductive Unacceptable : Text → Prop where
  | repeated {members : List (Text × Text)} {key t : Text} : RecordText members t →
      (∀ m ∈ members, ValueText m.2) → key ∈ keys → 2 ≤ (withKey key members).length →
      Unacceptable t
  | lacking {members : List (Text × Text)} {key t : Text} : RecordText members t →
      (∀ m ∈ members, ValueText m.2) → key ∈ [("return_type" : Text), "method_name"] →
      withKey key members = [] → Unacceptable t
  | argument {members : List (Text × Text)} {arguments t : Text} : RecordText members t →
      (∀ m ∈ members, ValueText m.2) → (("arguments" : Text), arguments) ∈ members →
      RepeatingArguments arguments → Unacceptable t
  | listed {modifier returnType name arguments t : Text} :
      ArrayText [modifier, returnType, name, arguments] t →
      (∀ part ∈ [modifier, returnType, name], ValueText part) →
      RepeatingArguments arguments → Unacceptable t

theorem refused_of_record {members : List (Text × Text)} (record : RecordText members t)
    (values : ∀ m ∈ members, ValueText m.2)
    (refused : ∀ modifier returnType name arguments,
      ¬ Gathered (drafts members) ⟨modifier, some returnType, some name, arguments⟩) :
    Reads t (draft t) ∧ ∀ s, partsOfDraft (draft t) ≠ .ok s := by
  have reads := reads_record record fun m member => (reads_value (values m member)).1
  rw [reads.draft_eq]
  refine ⟨reads, fun s decoded => ?_⟩
  obtain ⟨_, _, gathered, _⟩ := partsOfDraft_object_iff.mp decoded
  exact refused _ _ _ _ gathered

theorem Unacceptable.refused (unacceptable : Unacceptable t) :
    Reads t (draft t) ∧ ∀ s, partsOfDraft (draft t) ≠ .ok s := by
  cases unacceptable with
  | @repeated members key _ record values known twice =>
    refine refused_of_record record values fun _ _ _ _ gathered => ?_
    have once : (withKey key (drafts members)).length ≤ 1 := by
      simp only [keys, List.mem_cons, List.not_mem_nil, or_false] at known
      rcases known with rfl | rfl | rfl | rfl
      · exact gathered.modifier.length_le
      · exact gathered.returnType.length_le
      · exact gathered.name.length_le
      · exact gathered.arguments.length_le
    rw [length_withKey_drafts] at once
    omega
  | @lacking members key _ record values known missing =>
    refine refused_of_record record values fun _ _ _ _ gathered => ?_
    have given : withKey key (drafts members) ≠ [] := by
      rw [List.mem_cons, List.mem_singleton] at known
      rcases known with rfl | rfl
      · exact gathered.returnType.withKey_ne_nil
      · exact gathered.name.withKey_ne_nil
    rw [drafts, withKey_map, missing] at given
    exact given rfl
  | @argument members arguments _ record values member repeating =>
    refine refused_of_record record values fun _ _ _ given gathered => ?_
    have listed : (("arguments" : Text), draft arguments) ∈ drafts members :=
      List.mem_map.mpr ⟨_, member, rfl⟩
    rcases gathered.arguments with missing | ⟨only, decoded⟩
    · exact absurd missing (List.ne_nil_of_mem (mem_withKey listed rfl))
    · rw [← eq_of_only only listed rfl] at decoded
      exact repeating.refused _ decoded
  | @listed modifier returnType name arguments _ array values repeating =>
    have parts : ∀ part ∈ [modifier, returnType, name, arguments], ValueText part := by
      rw [show [modifier, returnType, name, arguments] = [modifier, returnType, name] ++ [arguments]
        from rfl, List.forall_mem_append, List.forall_mem_singleton]
      exact ⟨values, repeating.valueText⟩
    have reads := reads_array array
      (reads_items fun part listed => (reads_value (parts part listed)).1)
    rw [reads.draft_eq]
    refine ⟨reads, fun s decoded => ?_⟩
    rw [partsOfDraft] at decoded
    obtain ⟨_, _, decoded⟩ := bind_ok_iff.mp decoded
    obtain ⟨_, _, decoded⟩ := bind_ok_iff.mp decoded
    obtain ⟨_, _, decoded⟩ := bind_ok_iff.mp decoded
    obtain ⟨_, argumentsDecoded, _⟩ := bind_ok_iff.mp decoded
    exact repeating.refused _ argumentsDecoded

/-- All texts that spell the same parts are decoded to what the check makes of these; and no
object is accepted that repeats a key or lacks one that has to be given. -/
theorem spellings_alike (s : Signature) (before after : Blank) :
    (∀ t, s.Spelling t →
      (∀ r, s.check = .ok r → ofJsonText (before.val ++ (t ++ after.val)) = .ok r) ∧
      ∀ e, s.check = .error e →
        ∃ failure, ofJsonText (before.val ++ (t ++ after.val)) = .error failure ∧
          failure.fault? = none ∧ failure.message = e.message) ∧
      ∀ t, Unacceptable t →
        ∃ failure, ofJsonText (before.val ++ (t ++ after.val)) = .error failure := by
  constructor
  · intro t spelling
    obtain ⟨reads, decoded⟩ := spelling.decodes
    rw [ofText_padded reads before after, decoded]
    constructor
    · intro r accepted
      show s.check.mapError DecodeFailure.rejected = _
      rw [accepted]
      rfl
    · intro e refused
      refine ⟨.rejected e, ?_, rfl, rfl⟩
      show s.check.mapError DecodeFailure.rejected = _
      rw [refused]
      rfl
  · intro t unacceptable
    obtain ⟨reads, refused⟩ := unacceptable.refused
    rw [ofText_padded reads before after]
    cases parts : partsOfDraft (draft t) with
    | ok s => exact absurd parts (refused s)
    | error m => exact ⟨.mismatch m, rfl⟩

/-- The parts in reverse, with an unknown member between them, the argument as an array, and no
modifier. -/
theorem spellings_alike_reversed :
    let s : Signature := ⟨none, "void", "f", [⟨"int", "x"⟩]⟩
    let t : Text := "\x7b\"arguments\":[ [\"int\",\"x\"] ],\"new\":\x7b\"a\":null\x7d,\n" ++
      "\"method_name\":\"f\",\"return_type\":\"void\"\x7d"
    s.Spelling t ∧ ofJsonText t = .ok s := by
  intro s t
  let empty : Blank := ⟨[], by simp⟩
  let blank : Blank := ⟨[' '], by simp [isSpace]⟩
  let line : Blank := ⟨['\n'], by simp [isSpace]⟩
  have quoted : ∀ t, StringText (.ok t) (renderString t) := stringText_renderString
  have argument : ArrayText [renderString "int", renderString "x"] "[\"int\",\"x\"]" :=
    ⟨_, .cons empty (.cons empty empty (.nil empty)), rfl⟩
  have arguments : ArgumentsText s.arguments "[ [\"int\",\"x\"] ]" :=
    ⟨_, .cons (.array argument (quoted _) (quoted _)) .nil, _, .cons blank (.nil blank), rfl⟩
  have unknown : ValueText "\x7b\"a\":null\x7d" := by
    refine @ValueText.object [(.ok "a", "null")] _ ⟨_, _,
      .cons ⟨_, empty, empty, quoted _, rfl⟩ .nil, .cons empty (.nil empty), rfl⟩ ?_
    rw [List.forall_mem_singleton]
    exact .word List.mem_cons_self
  have record : RecordText [("arguments", "[ [\"int\",\"x\"] ]"), ("new", "\x7b\"a\":null\x7d"),
      ("method_name", renderString "f"), ("return_type", renderString "void")] t :=
    ⟨_, _, .cons ⟨_, empty, empty, quoted _, rfl⟩ (.cons ⟨_, empty, empty, quoted _, rfl⟩
      (.cons ⟨_, empty, empty, quoted _, rfl⟩ (.cons ⟨_, empty, empty, quoted _, rfl⟩ .nil))),
      .cons empty (.cons empty empty (.cons empty line (.cons empty empty (.nil empty)))), rfl⟩
  have others : ∀ m ∈ [(("arguments" : Text), ("[ [\"int\",\"x\"] ]" : Text)),
      ("new", "\x7b\"a\":null\x7d"), ("method_name", renderString "f"),
      ("return_type", renderString "void")], m.1 ∉ keys → ValueText m.2 := by
    simp only [List.forall_mem_cons]
    exact ⟨fun other => absurd (by decide) other, fun _ => unknown,
      fun other => absurd (by decide) other, fun other => absurd (by decide) other, by simp⟩
  have spelling : s.Spelling t := .object record (Or.inl ⟨rfl, rfl⟩) rfl (quoted "void") rfl
    (quoted "f") (Or.inr ⟨_, rfl, arguments⟩) others
  have checked : s.check = .ok s := by decide +kernel
  have decoded := ((spellings_alike s empty empty).1 t spelling).1 s checked
  rw [List.nil_append, List.append_nil] at decoded
  exact ⟨spelling, decoded⟩

end Signature
end MethodLines
