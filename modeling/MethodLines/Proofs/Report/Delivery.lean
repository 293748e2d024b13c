import Mathlib.Data.List.Basic
import MethodLines.Report.Writing

/-! Writing a report. Each writer puts the texts of its form one after the other, and nothing
behind one that fails. For a sink with limited room that comes to the same as one write of all the
bytes, so what arrives is the beginning of the report up to the room that there is, whichever text
that ends in and wherever in a character. -/
namespace MethodLines

namespace Text

theorem bytes_nil : bytes [] = .empty := by
  simp [bytes]

theorem bytes_append (t u : Text) : bytes (t ++ u) = bytes t ++ bytes u := by
  simp [bytes]

end Text

namespace Outlet

variable {m : Type → Type} [Monad m] [LawfulMonad m] {out : Outlet m}

theorem deliver_nil : out.deliver [] = out.flush := by
  rw [deliver]
  exact pure_bind _ _

theorem deliver_cons (t : Text) (rest : List Text) :
    out.deliver (t :: rest) = out.put t >>= fun _ => out.deliver rest := by
  rw [deliver, List.forM_eq_forM, List.forM_cons, bind_assoc]
  rfl

theorem forIn_put {α : Type} (xs : List α) (text : α → Text) :
    (forIn xs PUnit.unit fun x _ => do
      out.put (text x)
      return .yield PUnit.unit : ExceptT FileFault m PUnit) = (xs.map text).forM out.put := by
  induction xs with
  | nil => rfl
  | cons x xs ih =>
    rw [List.forIn_cons, List.map_cons, List.forM_eq_forM, List.forM_cons, ← List.forM_eq_forM,
      ← ih, bind_assoc]
    simp only [pure_bind]

end Outlet

namespace Sink

variable {sink later : Sink} {room : Nat} {first : ByteArray}

/-- The beginning of some bytes ends with them. -/
theorem extract_min (bytes : ByteArray) (n : Nat) :
    bytes.extract 0 (min n bytes.size) = bytes.extract 0 n := by
  have cut := ByteArray.extract_extract (a := bytes) (i := 0) (j := bytes.size) (k := 0) (l := n)
  simpa only [ByteArray.extract_zero_size, Nat.zero_add] using cut.symm

theorem extract_of_fits (fits : first.size ≤ room) : first.extract 0 room = first := by
  rw [← extract_min, Nat.min_eq_right fits, ByteArray.extract_zero_size]

theorem write_empty (sink : Sink) : sink.write .empty = (sink, true) := by
  obtain ⟨held, room⟩ := sink
  cases room with
  | none => simp [write]
  | some room => simp [write, extract_of_fits]

/-- A write goes on where the one before it has ended. -/
theorem write_append_of_room (second : ByteArray) (fitted : sink.write first = (later, true)) :
    sink.write (first ++ second) = later.write second := by
  obtain ⟨held, room⟩ := sink
  cases room with
  | none =>
    cases fitted
    simp [write, ByteArray.append_assoc]
  | some room =>
    obtain ⟨rfl, fits⟩ := Prod.mk.inj fitted
    have fits : first.size ≤ room := of_decide_eq_true fits
    have bound : first.size + second.size ≤ room ↔ second.size ≤ room - first.size := by omega
    simp only [write, ByteArray.extract_append, extract_of_fits fits, ByteArray.size_append,
      ByteArray.append_assoc, Nat.zero_sub, Nat.sub_add_eq, bound]

/-- Nothing arrives behind a write that there was not enough room for. -/
theorem write_append_of_full (second : ByteArray) (failed : sink.write first = (later, false)) :
    sink.write (first ++ second) = (later, false) := by
  obtain ⟨held, room⟩ := sink
  cases room with
  | none => cases failed
  | some room =>
    obtain ⟨rfl, full⟩ := Prod.mk.inj failed
    have full : room < first.size := Nat.lt_of_not_le (of_decide_eq_false full)
    have beyond : ¬ first.size + second.size ≤ room := by omega
    have used : room - first.size = 0 := Nat.sub_eq_zero_of_le (Nat.le_of_lt full)
    simp [write, ByteArray.extract_append, Nat.sub_add_eq, beyond, used]

theorem run_put (sink : Sink) (t : Text) :
    (outlet.put t).run.run sink =
      (if (sink.write t.bytes).2 then .ok () else .error .noSpace, (sink.write t.bytes).1) := by
  rcases written : sink.write t.bytes with ⟨later, complete⟩
  simp only [outlet, ExceptT.run_mk, StateT.run, written]
  cases complete <;> rfl

theorem run_put_bind (sink : Sink) (t : Text) (next : ExceptT FileFault (StateM Sink) Unit) :
    (outlet.put t >>= fun _ => next).run.run sink =
      if (sink.write t.bytes).2 then next.run.run (sink.write t.bytes).1
      else (.error .noSpace, (sink.write t.bytes).1) := by
  rw [ExceptT.run_bind, StateT.run_bind, run_put]
  cases (sink.write t.bytes).2 <;> rfl

/-- However some text is cut, delivering the pieces comes to the same as putting all of it. -/
theorem run_deliver (sink : Sink) (texts : List Text) :
    (outlet.deliver texts).run.run sink = (outlet.put texts.flatten).run.run sink := by
  induction texts generalizing sink with
  | nil =>
    rw [List.flatten_nil, run_put, Text.bytes_nil, write_empty]
    rfl
  | cons t rest ih =>
    rw [Outlet.deliver_cons, run_put_bind, List.flatten_cons, run_put, Text.bytes_append]
    rcases written : sink.write t.bytes with ⟨later, complete⟩
    cases complete with
    | true => rw [write_append_of_room _ written, if_pos rfl, ih, run_put]
    | false => rw [write_append_of_full _ written]; rfl

end Sink

namespace Report

section

variable {m : Type → Type} [Monad m] [LawfulMonad m] {out : Outlet m} {r : Report}

theorem writeDocument_eq : r.writeDocument out = out.deliver r.document := by
  rw [writeDocument, document, Outlet.deliver_cons, Outlet.deliver_cons, Outlet.deliver_nil]

theorem writeSignatures_eq : r.writeSignatures out =
    (tableHead ++ r.signatures.map (fun (line, s) => row (cells line s)) ++ blankLine).forM
      out.put := by
  unfold writeSignatures tableHead blankLine
  simp only [Outlet.forIn_put, List.forM_eq_forM, List.forM_append, List.forM_cons, List.forM_nil,
    bind_assoc, bind_pure_unit]

theorem writeFailures_eq : r.writeFailures out = r.failureSection.forM out.put := by
  unfold writeFailures failureSection failureHead stopNote blankLine
  cases r.hasFailures with
  | false => rfl
  | true =>
    simp only [Outlet.forIn_put, List.forM_eq_forM, List.forM_append, List.forM_cons,
      List.forM_nil, bind_assoc, bind_pure_unit, Bool.not_true, if_true]
    cases r.stoppedEarly <;> simp

theorem writeMarkdown_eq : r.writeMarkdown out = out.deliver r.markdown := by
  rw [writeMarkdown, writeSignatures_eq, writeFailures_eq, Outlet.deliver, markdown]
  simp only [List.forM_eq_forM, List.forM_append, bind_assoc]

theorem writeTerminal_eq (color : Bool) :
    r.writeTerminal color out = out.deliver (r.terminal color) := by
  unfold writeTerminal Outlet.deliver terminal
  simp only [Outlet.forIn_put, List.forM_eq_forM, List.forM_append, List.forM_cons, List.forM_nil,
    bind_assoc, bind_pure_unit]
  cases r.hasFailures <;> cases r.stoppedEarly <;> simp

/-- Wherever a report goes, its texts are put there in order, and none behind one that fails. -/
theorem write_eq_deliver (format : Format) (color : Bool) :
    r.write format color out = out.deliver (r.writes format color) := by
  cases format with
  | json => exact writeDocument_eq
  | markdown => exact writeMarkdown_eq
  | terminal => exact writeTerminal_eq color

end

/-- Each writer puts the texts of its form one after the other, wherever they go, and stops at the
first that fails. So a sink without a limit gets the whole report, and one with room for `n` bytes
gets the first `n` bytes of that, where writing fails exactly if there are more. It would be the
same if the report were cut into other texts. -/
theorem write_limited (format : Format) (color : Bool) (r : Report) (n : Nat) :
    let output := Text.bytes (r.rendered format color)
    let limited := (r.write format color Sink.outlet).run.run { room := some n }
    (∀ (m : Type → Type) [Monad m] [LawfulMonad m] (out : Outlet m),
        r.write format color out = out.deliver (r.writes format color)) ∧
      (r.write format color Sink.outlet).run.run {} = (.ok (), { held := output }) ∧
      limited.2.held = output.extract 0 (min n output.size) ∧
      ((∃ fault, limited.1 = .error fault) ↔ n < output.size) ∧
      ∀ texts : List Text, texts.flatten = r.rendered format color →
        (Sink.outlet.deliver texts).run.run { room := some n } = limited := by
  intro output limited
  have whole (sink : Sink) : (r.write format color Sink.outlet).run.run sink =
      (Sink.outlet.put (r.rendered format color)).run.run sink := by
    rw [write_eq_deliver, Sink.run_deliver]
    rfl
  have written : limited = (if output.size ≤ n then .ok () else .error .noSpace,
      { held := output.extract 0 n, room := some (n - output.size) }) := by
    refine (whole _).trans ((Sink.run_put _ _).trans ?_)
    simp [Sink.write, output]
  refine ⟨fun _ _ _ _ => write_eq_deliver format color, ?_, ?_, ?_, ?_⟩
  · rw [whole, Sink.run_put]
    simp [Sink.write, output]
  · rw [written, Sink.extract_min]
  · rw [written]
    by_cases fits : output.size ≤ n
    · simp [fits]
    · simp [fits, Nat.lt_of_not_le fits]
  · intro texts same
    rw [Sink.run_deliver, same]
    exact (whole _).symm

/-- Room for the first of the two bytes of a character, and texts of one character each. -/
theorem write_limited_within_character :
    let r : Report := ⟨[⟨1, "é f()", .ok ⟨none, "é", "f", []⟩⟩], false⟩
    let characters := (r.rendered .terminal false).map fun c => [c]
    let limited := (Sink.outlet.deliver characters).run.run { room := some 7 }
    characters.flatten = r.rendered .terminal false ∧
      limited = (r.write .terminal false Sink.outlet).run.run { room := some 7 } ∧
      limited.2.held.toList = [0x20, 0x20, 0x20, 0x31, 0x20, 0x20, 0xc3] ∧
      ∃ fault, limited.1 = .error fault := by
  intro r characters limited
  have whole : characters.flatten = r.rendered .terminal false := by decide +kernel
  obtain ⟨_, _, held, failed, recut⟩ := write_limited .terminal false r 7
  have same := recut characters whole
  refine ⟨whole, same, ?_, ?_⟩
  · rw [show limited = _ from same, held]
    decide +kernel
  · rw [show limited = _ from same, failed]
    decide +kernel

end Report
end MethodLines
