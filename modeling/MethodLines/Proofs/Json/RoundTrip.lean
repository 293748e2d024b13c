import MethodLines.Proofs.Json.Grammar

/-! Reading undoes writing for every JSON value, on one line or indented, whatever white space
follows: what is written for a value is one of its texts. -/
namespace MethodLines.Json

variable {space : Text}

namespace Layout

theorem isSpace_of_mem_gap (layout : Layout) (depth : Nat) :
    ∀ c ∈ layout.gap depth, isSpace c = true := by
  intro c member
  unfold gap at member
  split at member
  · rcases List.mem_cons.mp member with rfl | member
    · decide
    · rw [List.eq_of_mem_replicate member]
      decide
  · contradiction

def blank (layout : Layout) (depth : Nat) : Blank :=
  ⟨layout.gap depth, layout.isSpace_of_mem_gap depth⟩

/-- A colon may be followed by white space, but not preceded. -/
theorem colon_eq (layout : Layout) : ∃ after : Blank, layout.colon = ':' :: after.val := by
  unfold colon
  split
  · exact ⟨⟨[' '], by simp [isSpace]⟩, rfl⟩
  · exact ⟨⟨[], by simp⟩, rfl⟩

end Layout

variable (layout : Layout) (depth : Nat)

theorem continued_renderItems (items : List Json) (closing : Blank) :
    Continued (items.map (renderAt layout depth))
      (renderItems layout depth items ++ closing.val) := by
  induction items with
  | nil =>
    rw [renderItems]
    exact .nil closing
  | cons v items ih =>
    have written : Continued (renderAt layout depth v :: _) _ :=
      .cons ⟨[], by simp⟩ (layout.blank depth) ih
    rw [renderItems]
    simp only [List.append_assoc]
    exact written

theorem arrayText_renderAt (items : List Json) :
    ArrayText (items.map (renderAt layout (depth + 1))) (renderAt layout depth (.array items)) := by
  cases items with
  | nil =>
    rw [renderAt]
    exact ⟨[], .nil ⟨[], by simp⟩, rfl⟩
  | cons v items =>
    refine ⟨_, .cons (layout.blank (depth + 1))
      (continued_renderItems layout (depth + 1) items (layout.blank depth)), ?_⟩
    rw [renderAt]
    simp only [List.append_assoc]
    rfl

/-- A member as it is written. -/
def memberPart (m : Text × Json) : Text :=
  renderString m.1 ++ (layout.colon ++ renderAt layout depth m.2)

theorem memberText_memberPart (m : Text × Json) :
    MemberText (.ok m.1, renderAt layout depth m.2) (memberPart layout depth m) := by
  obtain ⟨after, colon⟩ := layout.colon_eq
  refine ⟨renderString m.1, ⟨[], by simp⟩, after, stringText_renderString m.1, ?_⟩
  rw [memberPart, colon]
  rfl

theorem continued_renderMembers (members : List (Text × Json)) (closing : Blank) :
    Continued (members.map (memberPart layout depth))
      (renderMembers layout depth members ++ closing.val) := by
  induction members with
  | nil =>
    rw [renderMembers]
    exact .nil closing
  | cons m members ih =>
    have written : Continued (memberPart layout depth m :: _) _ :=
      .cons ⟨[], by simp⟩ (layout.blank depth) ih
    rw [renderMembers]
    simp only [memberPart, List.append_assoc] at written ⊢
    exact written

theorem objectText_renderAt (members : List (Text × Json)) :
    ObjectText (members.map fun m => (.ok m.1, renderAt layout (depth + 1) m.2))
      (renderAt layout depth (.object members)) := by
  refine ⟨members.map (memberPart layout (depth + 1)), ?_⟩
  have written : List.Forall₂ MemberText
      (members.map fun m => (.ok m.1, renderAt layout (depth + 1) m.2))
      (members.map (memberPart layout (depth + 1))) := by
    rw [List.forall₂_map_left_iff, List.forall₂_map_right_iff, List.forall₂_same]
    exact fun m _ => memberText_memberPart layout (depth + 1) m
  cases members with
  | nil =>
    rw [renderAt]
    exact ⟨[], written, .nil ⟨[], by simp⟩, rfl⟩
  | cons m members =>
    refine ⟨_, written, .cons (layout.blank (depth + 1))
      (continued_renderMembers layout (depth + 1) members (layout.blank depth)), ?_⟩
    rw [renderAt, memberPart]
    simp only [List.append_assoc]
    rfl

namespace Draft

mutual

/-- What was written is read, whatever follows it. -/
theorem reads_renderAt (layout : Layout) (depth : Nat) (v : Json) :
    Reads (renderAt layout depth v) (ofJson v) := by
  match v with
  | .null =>
    rw [renderAt, ofJson]
    exact reads_null
  | .bool true =>
    rw [renderAt, ofJson]
    exact reads_true
  | .bool false =>
    rw [renderAt, ofJson]
    exact reads_false
  | .number n =>
    rw [renderAt, ofJson]
    exact reads_number (numberText_render n)
  | .string t =>
    rw [renderAt, ofJson]
    exact reads_string (stringText_renderString t)
  | .array items =>
    rw [ofJson]
    exact reads_array (arrayText_renderAt layout depth items) (reads_map layout (depth + 1) items)
  | .object members =>
    rw [ofJson]
    exact reads_object (objectText_renderAt layout depth members)
      (memberReads_map layout (depth + 1) members)

theorem reads_map (layout : Layout) (depth : Nat) (items : List Json) :
    List.Forall₂ Reads (items.map (renderAt layout depth)) (ofItems items) := by
  match items with
  | [] =>
    rw [ofItems]
    exact .nil
  | v :: items =>
    rw [ofItems]
    exact .cons (reads_renderAt layout depth v) (reads_map layout depth items)

theorem memberReads_map (layout : Layout) (depth : Nat) (members : List (Text × Json)) :
    List.Forall₂ MemberReads (members.map fun m => (.ok m.1, renderAt layout depth m.2))
      (ofMembers members) := by
  match members with
  | [] =>
    rw [ofMembers]
    exact .nil
  | (key, v) :: members =>
    rw [ofMembers]
    exact .cons ⟨rfl, reads_renderAt layout depth v⟩ (memberReads_map layout depth members)

end

/-- The fuel that a text is given is enough for what was written, at any depth and with white
space behind it. -/
theorem ofText_renderAt (layout : Layout) (depth : Nat) (v : Json)
    (blank : ∀ c ∈ space, isSpace c = true) :
    ofText (renderAt layout depth v ++ space) = (ofJson v, some space) :=
  (reads_renderAt layout depth v).ofText ⟨[], by simp⟩ ⟨space, blank⟩

mutual

/-- The draft of a value that is all well is that value. -/
theorem value?_ofJson (v : Json) : (ofJson v).value? = .ok v := by
  match v with
  | .null | .bool _ | .number _ | .string _ =>
    rw [ofJson, value?]
  | .array items =>
    rw [ofJson, value?, items?_ofItems items]
    rfl
  | .object members =>
    rw [ofJson, value?, members?_ofMembers members]
    rfl

theorem items?_ofItems (items : List Json) : items? (ofItems items) none = .ok items := by
  match items with
  | [] => rw [ofItems, items?]
  | v :: items =>
    rw [ofItems, items?, value?_ofJson v, items?_ofItems items]
    rfl

theorem members?_ofMembers (members : List (Text × Json)) :
    members? (ofMembers members) none = .ok members := by
  match members with
  | [] => rw [ofMembers, members?]
  | (key, v) :: members =>
    rw [ofMembers, members?, value?_ofJson v, members?_ofMembers members]
    rfl

end

end Draft

end MethodLines.Json
