import MethodLines.Proofs.Json.RoundTrip
import MethodLines.Proofs.Signature.Checking
import MethodLines.Signature.Encoding

/-! Encoding a record and decoding the text comes to checking the record: the text
keeps every part as it is, and decoding adds the check to it. -/
namespace MethodLines

open Json

theorem Json.Draft.gather_cons {σ : Type} {member : σ → Text → Draft → Decoded σ} {fields next : σ}
    {key : Text} {d : Draft} (taken : member fields key d = .ok next)
    (members : List (Except Fault Text × Draft)) (stop : Option Fault) :
    gather member fields ((.ok key, d) :: members) stop = gather member next members stop := by
  rw [gather, taken]
  rfl

theorem Argument.ofDraft_ofJson (a : Argument) : ofDraft (Draft.ofJson a.toJson) = .ok a := rfl

theorem Argument.toList_ofJson (args : List Argument) :
    (Draft.ofJson (.array (args.map toJson))).toList ofDraft = .ok args := by
  have items : (Draft.ofItems (args.map toJson)).mapM ofDraft = .ok args := by
    induction args with
    | nil => rfl
    | cons a args ih =>
      rw [List.map_cons, Draft.ofItems, List.mapM_cons, ofDraft_ofJson, ih]
      rfl
  rw [Draft.ofJson, Draft.toList, items]
  rfl

namespace Signature

variable {t : Text} {r : Signature}

theorem toOptionalText_ofJson (modifier : Option Text) :
    (Draft.ofJson (modifier.elim .null .string)).toOptionalText = .ok modifier := by
  cases modifier with
  | none => rfl
  | some m => rfl

/-- The members of an encoded record, read into an empty record. -/
theorem gather_ofMembers (s : Signature) :
    Draft.gather Fields.member {} (Draft.ofMembers [
      ("access_modifier", s.modifier.elim .null .string),
      ("return_type", .string s.returnType),
      ("method_name", .string s.name),
      ("arguments", .array (s.arguments.map Argument.toJson))]) none =
      .ok ⟨some s.modifier, some s.returnType, some s.name, some s.arguments⟩ := by
  have modifier : Fields.member {} "access_modifier"
      (Draft.ofJson (s.modifier.elim .null .string)) = .ok { modifier := some s.modifier } := by
    rw [Fields.member, if_pos rfl, toOptionalText_ofJson]
    rfl
  have returnType : Fields.member { modifier := some s.modifier } "return_type"
      (Draft.ofJson (.string s.returnType)) =
        .ok { modifier := some s.modifier, returnType := some s.returnType } := rfl
  have name : Fields.member { modifier := some s.modifier, returnType := some s.returnType }
      "method_name" (Draft.ofJson (.string s.name)) =
        .ok ⟨some s.modifier, some s.returnType, some s.name, none⟩ := rfl
  have arguments : Fields.member ⟨some s.modifier, some s.returnType, some s.name, none⟩
      "arguments" (Draft.ofJson (.array (s.arguments.map Argument.toJson))) =
        .ok ⟨some s.modifier, some s.returnType, some s.name, some s.arguments⟩ := by
    rw [Fields.member, if_neg (by decide), if_neg (by decide), if_neg (by decide), if_pos rfl,
      Argument.toList_ofJson]
    rfl
  simp only [Draft.ofMembers]
  rw [Draft.gather_cons modifier, Draft.gather_cons returnType, Draft.gather_cons name,
    Draft.gather_cons arguments]
  rfl

/-- The parts are taken out as they were put in, whether they pass the check or not. -/
theorem partsOfDraft_ofJson (s : Signature) : partsOfDraft (Draft.ofJson s.toJson) = .ok s := by
  rw [toJson, Draft.ofJson, partsOfDraft, gather_ofMembers]
  rfl

/-- Decoding without its log: the parts, the check, and what stands behind them. -/
theorem ofJsonText_eq (t : Text) : ofJsonText t = do
    let parts ← (partsOfDraft (Draft.ofText t).1).mapError .mismatch
    let s ← parts.check.mapError .rejected
    endedText (Draft.ofText t).2
    return s := by
  rw [ofJsonText, ofJsonTextTraced]
  obtain ⟨d, rest⟩ := Draft.ofText t
  dsimp only
  cases partsOfDraft d with
  | error m => rfl
  | ok parts =>
    simp only [Except.mapError, checkTraced, bind, Except.bind]
    cases parts.check with
    | error e => rfl
    | ok s =>
      cases endedText rest with
      | error failure => rfl
      | ok _ => rfl

/-- A written value that holds the parts of a record is decoded as far as the check lets
them through. -/
theorem ofJsonText_renderAt {v : Json} {s : Signature}
    (parts : partsOfDraft (Draft.ofJson v) = .ok s) (layout : Layout) (depth : Nat) :
    ofJsonText (renderAt layout depth v) = s.check.mapError .rejected := by
  have blank : ∀ c ∈ ([] : Text), isSpace c = true := by simp
  have written := Draft.ofText_renderAt layout depth v blank
  rw [List.append_nil] at written
  rw [ofJsonText_eq, written, parts]
  simp only [Except.mapError, bind, Except.bind]
  cases s.check with
  | error e => rfl
  | ok r => rfl

theorem ofJsonText_compact (s : Signature) :
    ofJsonText s.toJson.compact = s.check.mapError .rejected :=
  ofJsonText_renderAt (partsOfDraft_ofJson s) .compact 0

theorem ofJsonText_wellFormed (decoded : ofJsonText t = .ok r) : r.WellFormed := by
  rw [ofJsonText_eq] at decoded
  obtain ⟨parts, _, decoded⟩ := Outcome.bind_ok_iff.mp decoded
  obtain ⟨s, checked, decoded⟩ := Outcome.bind_ok_iff.mp decoded
  obtain ⟨_, _, result⟩ := Outcome.bind_ok_iff.mp decoded
  cases result
  obtain ⟨valid, rfl⟩ := check_ok_iff.mp (Outcome.mapError_ok_iff.mp checked)
  exact valid

/-- Decoding undoes encoding exactly on the records that the check lets through. Every
other record is refused for what it means, in the words of the check, and no text at
all is decoded to a record that is not well formed. -/
theorem decode_encode (s : Signature) :
    (∀ r, s.check = .ok r → r = s ∧ ofJsonText s.toJson.compact = .ok r) ∧
      (∀ e, s.check = .error e → ∃ failure, ofJsonText s.toJson.compact = .error failure ∧
        failure.fault? = none ∧ failure.message = e.message) ∧
      (∀ line, read line = .ok s → ofJsonText s.toJson.compact = .ok s) ∧
      (∀ parts : Signature, parts.check = .ok s → ofJsonText s.toJson.compact = .ok s) ∧
      ∀ t r, ofJsonText t = .ok r → r.WellFormed := by
  have undone : s.WellFormed → ofJsonText s.toJson.compact = .ok s := by
    intro valid
    rw [ofJsonText_compact, check_ok_iff.mpr ⟨valid, rfl⟩]
    rfl
  refine ⟨?_, ?_, ?_, ?_, fun t r => ofJsonText_wellFormed⟩
  · intro r accepted
    obtain ⟨valid, rfl⟩ := check_ok_iff.mp accepted
    exact ⟨rfl, undone valid⟩
  · intro e refused
    refine ⟨.rejected e, ?_, rfl, rfl⟩
    rw [ofJsonText_compact, refused]
    rfl
  · intro line accepted
    exact undone (read_wellFormed accepted)
  · intro parts accepted
    obtain ⟨valid, rfl⟩ := check_ok_iff.mp accepted
    exact undone valid

end Signature
end MethodLines
