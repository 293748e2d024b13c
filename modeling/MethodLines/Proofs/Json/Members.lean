import Mathlib.Data.List.Induction
import MethodLines.Json.Decoding
import MethodLines.Proofs.Outcome

/-! The members of an object, taken out by their keys. Whatever their order, a field gets what
the one member with its key holds, and nothing if there is none; a key that comes again is
refused. -/
namespace MethodLines.Json

open Outcome

variable {σ α β : Type} {key : Text} {decode : Draft → Decoded α} {members : List (Text × Draft)}
  {m : Text × Draft} {value : Decoded α} {known given : Option α} {a : α}

def withKey (key : Text) (members : List (Text × β)) : List (Text × β) :=
  members.filter fun m => m.1 = key

theorem withKey_concat (key : Text) (members : List (Text × β)) (m : Text × β) :
    withKey key (members ++ [m]) = withKey key members ++ if m.1 = key then [m] else [] := by
  unfold withKey
  rw [List.filter_append]
  split <;> simp_all

def Only (key : Text) (members : List (Text × β)) (b : β) : Prop :=
  withKey key members = [(key, b)]

/-- What the members give for a field: the value of the only one with its key, or nothing. -/
inductive Given (key : Text) (decode : Draft → Decoded α) (members : List (Text × Draft)) :
    Option α → Prop where
  | absent : withKey key members = [] → Given key decode members none
  | present {d : Draft} {a : α} : Only key members d → decode d = .ok a →
      Given key decode members (some a)

/-- What a member does to a field, given what the members before it have told. -/
def Takes (key : Text) (decode : Draft → Decoded α) (m : Text × Draft) (known given : Option α) :
    Prop :=
  if m.1 = key then once key known (decode m.2) = .ok given else known = given

theorem once_ok_iff : once key known value = .ok given ↔
    known = none ∧ ∃ a, value = .ok a ∧ given = some a := by
  unfold once
  cases known with
  | some a => simp
  | none =>
    cases value with
    | ok a => simp [Except.map, eq_comm]
    | error e => simp [Except.map]

theorem required_ok_iff : required key known = .ok a ↔ known = some a := by
  cases known with
  | some b => simp [required]
  | none => simp [required]

theorem ignored_ok_iff {d : Draft} {u : Unit} : d.ignored = .ok u ↔ d.skip = .ok () := by
  unfold Draft.ignored
  cases d.skip with
  | ok u => simp
  | error fault => simp

theorem given_nil_iff : Given key decode [] given ↔ given = none := by
  constructor
  · rintro (_ | ⟨only, _⟩)
    · rfl
    · cases only
  · rintro rfl
    exact .absent rfl

theorem Given.length_le (found : Given key decode members given) :
    (withKey key members).length ≤ 1 := by
  rcases found with missing | ⟨only, _⟩
  · rw [missing]
    exact Nat.zero_le 1
  · rw [show withKey key members = _ from only]
    exact Nat.le_refl 1

theorem Given.withKey_ne_nil (found : Given key decode members (some a)) :
    withKey key members ≠ [] := by
  obtain _ | ⟨only, _⟩ := found
  rw [show withKey key members = _ from only]
  exact List.cons_ne_nil _ _

theorem given_concat_iff : Given key decode (members ++ [m]) given ↔
    ∃ known, Given key decode members known ∧ Takes key decode m known given := by
  unfold Takes
  by_cases same : m.1 = key
  · obtain ⟨key', d⟩ := m
    obtain rfl : key' = key := same
    simp only [if_true, once_ok_iff]
    constructor
    · rintro (missing | ⟨only, decoded⟩)
      · simp [withKey_concat] at missing
      · rw [Only, withKey_concat, if_pos rfl, List.append_eq_singleton_iff] at only
        simp only [List.cons_ne_nil, and_false, or_false, List.cons.injEq, Prod.mk.injEq, true_and,
          and_true] at only
        obtain ⟨none_before, rfl⟩ := only
        exact ⟨none, .absent none_before, rfl, _, decoded, rfl⟩
    · rintro ⟨known, before, rfl, a, decoded, rfl⟩
      cases before with
      | absent missing =>
        refine .present (d := d) ?_ decoded
        rw [Only, withKey_concat, if_pos rfl, missing, List.nil_append]
  · have kept : withKey key (members ++ [m]) = withKey key members := by
      rw [withKey_concat, if_neg same, List.append_nil]
    have equivalent : Given key decode (members ++ [m]) given ↔ Given key decode members given := by
      constructor
      · rintro (missing | ⟨only, decoded⟩)
        · exact .absent (kept.symm.trans missing)
        · exact .present (kept.symm.trans only) decoded
      · rintro (missing | ⟨only, decoded⟩)
        · exact .absent (kept.trans missing)
        · exact .present (kept.trans only) decoded
    simp only [if_neg same, equivalent, exists_eq_right]

/-- Gathering succeeds with what the members give, if each member does to what is given what it
does to the fields. -/
theorem gather_ok_iff {member : σ → Text → Draft → Decoded σ} {start : σ}
    {all : List (Text × Draft) → σ → Prop} (nothing : ∀ fields, all [] fields ↔ fields = start)
    (one_more : ∀ members m fields, all (members ++ [m]) fields ↔
      ∃ known, all members known ∧ member known m.1 m.2 = .ok fields) (fields : σ) :
    Draft.gather member start (members.map fun m => (.ok m.1, m.2)) none = .ok fields ↔
      all members fields := by
  have folded : ∀ (members : List (Text × Draft)) (start : σ),
      Draft.gather member start (members.map fun m => (.ok m.1, m.2)) none =
        members.foldlM (fun fields m => member fields m.1 m.2) start := by
    intro members
    induction members with
    | nil => intro start; rfl
    | cons m members ih =>
      intro start
      rw [List.map_cons, Draft.gather, List.foldlM_cons]
      exact bind_congr ih
  rw [folded]
  induction members using List.reverseRecOn generalizing fields with
  | nil =>
    rw [nothing, List.foldlM_nil]
    simp [pure, Except.pure, eq_comm]
  | append_singleton members m ih =>
    rw [List.foldlM_append, bind_ok_iff, one_more]
    refine exists_congr fun known => and_congr (ih known) ?_
    simp

end MethodLines.Json
