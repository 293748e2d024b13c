import Mathlib.Data.List.Forall2

/-! When steps that may fail succeed one after the other, and with what they fail
otherwise. The first step that fails decides. -/
namespace MethodLines.Outcome

variable {ε α β : Type} {e : ε}

theorem bind_ok_iff {step : Except ε α} {next : α → Except ε β} {b : β} :
    step >>= next = .ok b ↔ ∃ a, step = .ok a ∧ next a = .ok b := by
  cases step with
  | error e => simp [bind, Except.bind]
  | ok a => simp [bind, Except.bind]

theorem bind_error_iff {step : Except ε α} {next : α → Except ε β} :
    step >>= next = .error e ↔ step = .error e ∨ ∃ a, step = .ok a ∧ next a = .error e := by
  cases step with
  | error e => simp [bind, Except.bind]
  | ok a => simp [bind, Except.bind]

theorem mapError_ok_iff {ε' : Type} {f : ε → ε'} {step : Except ε α} {a : α} :
    step.mapError f = .ok a ↔ step = .ok a := by
  cases step with
  | error e => simp [Except.mapError]
  | ok a => simp [Except.mapError]

theorem mapError_eq_self {f : ε → ε} {step : Except ε α}
    (fixed : ∀ e, step = .error e → f e = e) : step.mapError f = step := by
  cases step with
  | error e => rw [Except.mapError, fixed e rfl]
  | ok a => rfl

theorem mapError_bind {ε' : Type} (f : ε → ε') (step : Except ε α) (next : α → Except ε β) :
    (step >>= next).mapError f = step.mapError f >>= fun a => (next a).mapError f := by
  cases step with
  | error e => rfl
  | ok a => rfl

variable {f : α → Except ε β}

theorem mapM_ok_iff {xs : List α} {ys : List β} :
    xs.mapM f = .ok ys ↔ List.Forall₂ (fun x y => f x = .ok y) xs ys := by
  induction xs generalizing ys with
  | nil => cases ys <;> simp [pure, Except.pure]
  | cons x xs ih =>
    rw [List.mapM_cons, bind_ok_iff]
    constructor
    · rintro ⟨y, first, rest⟩
      obtain ⟨others, later, equal⟩ := bind_ok_iff.mp rest
      cases equal
      exact .cons first (ih.mp later)
    · rintro (_ | ⟨first, rest⟩)
      exact ⟨_, first, bind_ok_iff.mpr ⟨_, ih.mpr rest, rfl⟩⟩

theorem ok_of_mapM_ok {xs : List α} {ys : List β} {x : α} (done : xs.mapM f = .ok ys)
    (member : x ∈ xs) : ∃ y, f x = .ok y := by
  induction xs generalizing ys with
  | nil => contradiction
  | cons first xs ih =>
    rw [List.mapM_cons, bind_ok_iff] at done
    obtain ⟨y, head, rest⟩ := done
    obtain ⟨others, tail, _⟩ := bind_ok_iff.mp rest
    rcases List.mem_cons.mp member with rfl | further
    · exact ⟨y, head⟩
    · exact ih tail further

theorem mapM_error_iff {xs : List α} :
    xs.mapM f = .error e ↔ ∃ before x after, xs = before ++ x :: after ∧
      (∀ y ∈ before, ∃ z, f y = .ok z) ∧ f x = .error e := by
  induction xs with
  | nil => simp [pure, Except.pure]
  | cons x xs ih =>
    rw [List.mapM_cons, bind_error_iff]
    constructor
    · rintro (failed | ⟨y, first, rest⟩)
      · exact ⟨[], x, xs, rfl, by simp, failed⟩
      · rcases bind_error_iff.mp rest with failed | ⟨_, _, impossible⟩
        · obtain ⟨before, z, after, rfl, passed, failed⟩ := ih.mp failed
          refine ⟨x :: before, z, after, rfl, ?_, failed⟩
          intro w member
          rcases List.mem_cons.mp member with rfl | member
          · exact ⟨y, first⟩
          · exact passed w member
        · cases impossible
    · rintro ⟨before, z, after, split, passed, failed⟩
      cases before with
      | nil =>
        cases split
        exact Or.inl failed
      | cons w before =>
        cases split
        obtain ⟨y, first⟩ := passed x List.mem_cons_self
        have later := ih.mpr
          ⟨before, z, after, rfl, fun w member => passed w (List.mem_cons_of_mem _ member), failed⟩
        exact Or.inr ⟨y, first, bind_error_iff.mpr (Or.inl later)⟩

end MethodLines.Outcome
