import MethodLines.Signature.Rejection
import MethodLines.Signature

/-! What came of the lines of a batch, in line order. -/
namespace MethodLines

instance Outcome.decidableEqResult {ε α : Type} [DecidableEq ε] [DecidableEq α] :
    DecidableEq (Except ε α)
  | .ok a, .ok b => if h : a = b then isTrue (h ▸ rfl) else isFalse fun e => h (Except.ok.inj e)
  | .error a, .error b =>
    if h : a = b then isTrue (h ▸ rfl) else isFalse fun e => h (Except.error.inj e)
  | .ok _, .error _ | .error _, .ok _ => isFalse nofun

structure Outcome where
  /-- The place of the line among all raw lines, from 1. -/
  line : Nat
  /-- The trimmed line. -/
  source : Text
  result : Except Rejection Signature
deriving DecidableEq

def Outcome.failed (o : Outcome) : Bool :=
  match o.result with
  | .ok _ => false
  | .error _ => true

structure Report where
  outcomes : List Outcome
  /-- Whether lines were left out because an earlier one failed. -/
  stoppedEarly : Bool
deriving DecidableEq

namespace Report

def signatures (r : Report) : List (Nat × Signature) :=
  r.outcomes.filterMap fun o => o.result.toOption.map (o.line, ·)

def rejection? (o : Outcome) : Option Rejection :=
  match o.result with
  | .ok _ => none
  | .error e => some e

def failures (r : Report) : List (Outcome × Rejection) :=
  r.outcomes.filterMap fun o => (rejection? o).map (o, ·)

def hasFailures (r : Report) : Bool := r.outcomes.any Outcome.failed

end Report
end MethodLines
