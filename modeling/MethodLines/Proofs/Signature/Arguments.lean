import MethodLines.Proofs.Signature.Reading

/-! Argument lists put behind one another. Two bodies with ", " between them are read one after
the other, whatever characters meet there, and the first fragment that is no argument decides
as it does within one body. Bodies have to hold something: nothing at all is read as no
argument, but nothing beside a separator is a fragment. -/
namespace MethodLines.Signature

open Text

variable {front back body : Text} {bodies : List Text}

theorem readArguments_of_ne_nil (filled : body ≠ []) :
    readArguments body = (fragments body).mapM readArgument :=
  if_neg filled

theorem readArguments_join (front_filled : front ≠ []) (back_filled : back ≠ []) :
    readArguments (front ++ ", " ++ back) = do
      let first ← readArguments front
      let others ← readArguments back
      return first ++ others := by
  have filled : (front ++ ", " ++ back : Text) ≠ [] := by simp [front_filled]
  rw [readArguments_of_ne_nil filled, readArguments_of_ne_nil front_filled,
    readArguments_of_ne_nil back_filled, List.append_assoc, fragments_join, List.mapM_append]

/-- Reading takes ", " between bodies to putting arguments behind one another: two bodies that
are accepted give the arguments of both, and otherwise the first that is rejected gives the
reason. -/
theorem readArguments_joined (front back : Text) (front_filled : front ≠ [])
    (back_filled : back ≠ []) :
    (∀ first others, readArguments front = .ok first → readArguments back = .ok others →
      readArguments (front ++ ", " ++ back) = .ok (first ++ others)) ∧
    (∀ e, readArguments front = .error e →
      readArguments (front ++ ", " ++ back) = .error e) ∧
    (∀ first e, readArguments front = .ok first → readArguments back = .error e →
      readArguments (front ++ ", " ++ back) = .error e) := by
  rw [readArguments_join front_filled back_filled]
  refine ⟨?accepted, ?front_rejected, ?back_rejected⟩
  case accepted =>
    intro first others front_read back_read
    rw [front_read, back_read]
    rfl
  case front_rejected =>
    intro e front_read
    rw [front_read]
    rfl
  case back_rejected =>
    intro first e front_read back_read
    rw [front_read, back_read]
    rfl

/-- Commas and blanks on either side of the separator. Where both bodies are rejected it is for
the first. -/
theorem readArguments_joined_at_commas :
    readArguments ("A<B,C> a," ++ ", " ++ ",D d" : Text) =
      .ok [⟨"A<B,C>", "a,"⟩, ⟨",D", "d"⟩] ∧
    readArguments ("A a,  b" ++ ", " ++ "c" : Text) = .error (.argument " b") ∧
    readArguments ("A a," ++ ", " ++ " b" : Text) = .error (.argument " b") :=
  ⟨(readArguments_joined "A<B,C> a," ",D d" (by decide) (by decide)).1 _ _ rfl rfl,
    (readArguments_joined "A a,  b" "c" (by decide) (by decide)).2.1 _ rfl,
    (readArguments_joined "A a," " b" (by decide) (by decide)).2.2 _ _ rfl rfl⟩

end MethodLines.Signature
