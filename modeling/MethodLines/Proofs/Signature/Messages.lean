import MethodLines.Proofs.Json.Numbers
import MethodLines.Proofs.Text.Pieces
import MethodLines.Signature.Rejection

/-! The messages of rejections: each is one line of printable characters around the text that
was rejected. No wording starts like another one, so that a message tells which rejection it is
of, whatever the rejected text says. -/
namespace MethodLines

inductive Wording where
  | unopened | reopened | closedWithin | tokenCount | argument | ambiguous
  | emptyToken (place : TokenPlace)
deriving DecidableEq

namespace Wording

def all : List Wording :=
  [.unopened, .reopened, .closedWithin, .tokenCount, .argument, .ambiguous,
   .emptyToken .modifier, .emptyToken .returnType, .emptyToken .name]

def opening : Wording → Text
  | .unopened => "missing '(' in signature '"
  | .reopened => "unexpected '(' in argument list '"
  | .closedWithin => "unexpected ')' in argument list '"
  | .tokenCount => "expected 2 or 3 space-separated tokens before '(', found "
  | .argument => "argument '"
  | .ambiguous => "signature renders as '"
  | .emptyToken place => "empty " ++ place.label ++ " in '"

def ending : Wording → Text
  | .argument => "' is not a 'type name' pair"
  | .ambiguous => "', which parses to a different record"
  | _ => "'"

/-- The rejection whose message has this between the opening and the ending. -/
def ofDetail (detail : Text) : Wording → Rejection
  | .unopened => .unopened detail
  | .reopened => .reopened detail
  | .closedWithin => .closedWithin detail
  | .tokenCount =>
    match Text.cut? ' ' detail with
    | some (count, rest) => .tokenCount (rest.drop 4) (Json.Draft.digitsValue count)
    | none => .tokenCount detail 0
  | .argument => .argument detail
  | .ambiguous => .ambiguous detail
  | .emptyToken place => .emptyToken detail place

theorem mem_all (w : Wording) : w ∈ all := by
  cases w with
  | emptyToken place => cases place <;> decide
  | _ => decide

/-- No message starts like one of another wording. -/
theorem eq_of_prefix {v w : Wording} (start : v.opening <+: w.opening) : v = w := by
  have apart : ∀ v ∈ all, ∀ w ∈ all, v.opening <+: w.opening → v = w := by
    decide +kernel
  exact apart v (mem_all v) w (mem_all w) start

end Wording

namespace Rejection

def wording : Rejection → Wording
  | .unopened _ => .unopened
  | .reopened _ => .reopened
  | .closedWithin _ => .closedWithin
  | .tokenCount .. => .tokenCount
  | .argument _ => .argument
  | .ambiguous _ => .ambiguous
  | .emptyToken _ place => .emptyToken place

/-- What the message says between its opening and its ending. -/
def detail : Rejection → Text
  | .tokenCount head count => Text.decimal count ++ " in '" ++ head
  | e => e.offending

variable {c : Char} {e : Rejection}

theorem message_eq_wording (e : Rejection) :
    e.message = e.wording.opening ++ e.detail ++ e.wording.ending := by
  cases e with
  | tokenCount head count =>
    have regrouped : ∀ a b c d e : Text, a ++ b ++ c ++ d ++ e = a ++ (b ++ c ++ d) ++ e := by
      simp
    exact regrouped _ _ _ _ _
  | _ => rfl

theorem opening_starts_message (e : Rejection) : e.wording.opening <+: e.message := by
  rw [message_eq_wording, List.append_assoc]
  exact List.prefix_append _ _

/-- No control stands beside the rejected text. -/
theorem message_eq (e : Rejection) : ∃ before after,
    e.message = before ++ e.offending ++ after ∧
      (before.all fun c => 0x20 ≤ c.toNat) = true ∧
      (after.all fun c => 0x20 ≤ c.toNat) = true := by
  have printable : ∀ w ∈ Wording.all, (w.opening.all fun c => 0x20 ≤ c.toNat) = true ∧
      (w.ending.all fun c => 0x20 ≤ c.toNat) = true := by decide +kernel
  obtain ⟨start, finish⟩ := printable e.wording (Wording.mem_all _)
  cases e with
  | tokenCount head count =>
    refine ⟨_, _, rfl, ?_, finish⟩
    rw [List.all_append, List.all_append, Bool.and_eq_true, Bool.and_eq_true]
    refine ⟨⟨start, List.all_eq_true.mpr fun c member => decide_eq_true ?_⟩, by decide⟩
    have digit := Json.Draft.isDigit_of_mem_decimal count c member
    simp only [Char.isDigit, Bool.and_eq_true, decide_eq_true_eq] at digit
    exact Nat.le_trans (by decide) digit.1
  | _ => exact ⟨_, _, rfl, start, finish⟩

theorem not_mem_message (control : c.toNat < 0x20) (free : c ∉ e.offending) : c ∉ e.message := by
  obtain ⟨before, after, quoted, start, finish⟩ := message_eq e
  simp only [List.all_eq_true, decide_eq_true_eq] at start finish
  rw [quoted, List.mem_append, List.mem_append, not_or, not_or]
  exact ⟨⟨fun inside => Nat.not_le.mpr control (start c inside), free⟩,
    fun inside => Nat.not_le.mpr control (finish c inside)⟩

/-- The number of tokens ends at the first blank behind it. -/
theorem ofDetail_detail (e : Rejection) : e.wording.ofDetail e.detail = e := by
  cases e with
  | tokenCount head count =>
    have cut : Text.cut? ' ' (detail (.tokenCount head count)) =
        some (Text.decimal count, "in '" ++ head) :=
      Text.cut?_eq_some_iff.mpr
        ⟨Json.Draft.not_mem_decimal (by decide) count, List.append_assoc ..⟩
    simp only [wording, Wording.ofDetail, cut, Json.Draft.digitsValue_decimal]
    rfl
  | _ => rfl

/-- A message tells all of the rejection that it is of: which one it is, the number or the
place, and the text, whatever characters stand in that. -/
theorem message_inj (e d : Rejection) : e.message = d.message ↔ e = d := by
  refine ⟨fun same => ?_, congrArg message⟩
  have wordings : e.wording = d.wording := by
    have first := opening_starts_message e
    have second := opening_starts_message d
    rw [← same] at second
    rcases List.prefix_or_prefix_of_prefix first second with start | start
    · exact Wording.eq_of_prefix start
    · exact (Wording.eq_of_prefix start).symm
  have details : e.detail = d.detail := by
    rw [message_eq_wording, message_eq_wording, wordings] at same
    exact List.append_cancel_left (List.append_cancel_right same)
  rw [← ofDetail_detail e, wordings, details, ofDetail_detail]

end Rejection
end MethodLines
