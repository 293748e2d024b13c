import MethodLines.Proofs.Json.Numbers
import MethodLines.Proofs.Signature.RoundTrip
import MethodLines.Report.Markdown

/-! The rows of the Markdown table can be taken apart again. A pipe inside a cell has a
backslash before it and a pipe between cells has a blank before it, so that only the latter
are bare; and what the cells then say is told apart by its blanks, which no token of a
signature holds. -/
namespace MethodLines.Report

open Text

/-- The pieces of a line between the pipes that no backslash stands directly before.
One may stand before the first character. -/
def splitBare (escaped : Bool) : Text → List Text
  | [] => [[]]
  | c :: t =>
    if c = '|' ∧ escaped = false then [] :: splitBare false t
    else (splitBare (c = '\\') t).modifyHead (c :: ·)

/-- The text without the backslashes that stand directly before a pipe. -/
def unescape : Text → Text
  | [] => []
  | '\\' :: '|' :: t => '|' :: unescape t
  | c :: t => c :: unescape t

def quoted (t : Text) : Text := "\x60" ++ t ++ "\x60"

def shownArguments (arguments : List Argument) : Text :=
  if arguments.isEmpty then "-"
  else (", " : Text).intercalate (arguments.map fun a => quoted a.render)

def shown (line : Nat) (s : Signature) : List Text :=
  [Text.decimal line, s.modifier.getD "-", quoted s.returnType, quoted s.name,
   shownArguments s.arguments]

def rowLine (line : Nat) (s : Signature) : Text :=
  "| " ++ (" | " : Text).intercalate (cells line s) ++ " |"

variable {c : Char} {t : Text} {escaped : Bool} {texts : List Text}

theorem cell_cons (c : Char) (t : Text) :
    cell (c :: t) = (if c = '|' then ['\\', '|'] else [c]) ++ cell t := rfl

theorem cell_append (t u : Text) : cell (t ++ u) = cell t ++ cell u := List.flatMap_append

theorem cell_of_not_mem (absent : '|' ∉ t) : cell t = t := by
  induction t with
  | nil => rfl
  | cons c t ih =>
    rw [List.mem_cons, not_or] at absent
    rw [cell_cons, if_neg (Ne.symm absent.1), ih absent.2, List.singleton_append]

theorem cell_intercalate (texts : List Text) :
    cell ([',', ' '].intercalate texts) = [',', ' '].intercalate (texts.map cell) := by
  induction texts with
  | nil => rfl
  | cons first others ih =>
    cases others with
    | nil => simp
    | cons second others =>
      rw [List.intercalate_cons_cons, cell_append, cell_append, ih]
      exact (List.intercalate_cons_cons).symm

theorem mem_of_mem_cell (plain : c ≠ '\\') (member : c ∈ cell t) : c ∈ t := by
  obtain ⟨d, inside, made⟩ := List.mem_flatMap.mp member
  split at made
  · simp_all
  · rw [List.mem_singleton] at made
    exact made ▸ inside

theorem head?_cell (t : Text) : (cell t).head? ≠ some '|' := by
  cases t with
  | nil => simp [cell, substitute]
  | cons c t =>
    rw [cell_cons]
    split
    · simp
    · rename_i other
      simpa using other

/-- Any text can be put into a cell. -/
theorem unescape_cell (t : Text) : unescape (cell t) = t := by
  induction t with
  | nil => rfl
  | cons c t ih =>
    rw [cell_cons]
    by_cases pipe : c = '|'
    · subst pipe
      rw [if_pos rfl]
      exact congrArg ('|' :: ·) ih
    · rw [if_neg pipe, List.singleton_append, unescape, ih]
      rintro rest rfl bare
      exact head?_cell t (by rw [bare]; rfl)

theorem splitBare_bare (t : Text) : splitBare false ('|' :: t) = [] :: splitBare false t := rfl

theorem splitBare_plain (escaped : Bool) (plain : c ≠ '|') (t : Text) :
    splitBare escaped (c :: t) = (splitBare (c = '\\') t).modifyHead (c :: ·) := by
  rw [splitBare, if_neg (fun bare => plain bare.1)]

theorem splitBare_marked (escaped : Bool) (t : Text) :
    splitBare escaped ('\\' :: '|' :: t) =
      (splitBare false t).modifyHead ('\\' :: '|' :: ·) := by
  rw [splitBare_plain escaped (by decide)]
  exact List.modifyHead_modifyHead

/-- The pipes of a cell are not bare, whatever stands before it. -/
theorem splitBare_cell (escaped : Bool) (t rest : Text) :
    splitBare escaped (cell t ++ ' ' :: rest) =
      (splitBare false rest).modifyHead (cell t ++ ' ' :: ·) := by
  induction t generalizing escaped with
  | nil => exact splitBare_plain escaped (by decide) rest
  | cons c t ih =>
    rw [cell_cons]
    by_cases pipe : c = '|'
    · subst pipe
      rw [if_pos rfl, List.append_assoc, List.cons_append, List.singleton_append,
        splitBare_marked, ih, List.modifyHead_modifyHead]
      rfl
    · rw [if_neg pipe, List.singleton_append, List.cons_append, splitBare_plain escaped pipe, ih,
        List.modifyHead_modifyHead]
      rfl

/-- A line of cells, from the blank before the first on. -/
theorem splitBare_cells (filled : texts ≠ []) :
    splitBare false (' ' :: (([' ', '|', ' '] : Text).intercalate (texts.map cell) ++ [' ', '|'])) =
      texts.map (fun t => ' ' :: (cell t ++ [' '])) ++ [[]] := by
  induction texts with
  | nil => contradiction
  | cons first others ih =>
    have start (rest : Text) : splitBare false (' ' :: (cell first ++ ' ' :: '|' :: rest)) =
        (' ' :: (cell first ++ [' '])) :: splitBare false rest := by
      rw [splitBare_plain false (by decide), splitBare_cell, splitBare_bare]
      rfl
    cases others with
    | nil =>
      rw [List.map_singleton, List.intercalate_singleton, start]
      rfl
    | cons second others =>
      rw [List.map_cons, List.map_cons, List.intercalate_cons_cons, ← List.map_cons,
        List.append_assoc, List.append_assoc]
      exact (start _).trans (congrArg _ (ih (by simp)))

theorem codeCell_eq (t : Text) : codeCell t = cell (quoted t) := by
  rw [quoted, cell_append, cell_append]
  rfl

/-- The cells of a row are what it says, with the pipes marked. -/
theorem cells_eq (line : Nat) (s : Signature) : cells line s = (shown line s).map cell := by
  have number : cell (Text.decimal line) = Text.decimal line :=
    cell_of_not_mem (Json.Draft.not_mem_decimal (by decide) line)
  have arguments : cell (shownArguments s.arguments) =
      if s.arguments.isEmpty then ("-" : Text)
      else (", " : Text).intercalate (s.arguments.map fun a => codeCell a.render) := by
    unfold shownArguments
    split
    · rfl
    · have commas := cell_intercalate (s.arguments.map fun a => quoted a.render)
      rw [List.map_map] at commas
      simp only [codeCell_eq]
      exact commas
  rw [cells, shown, List.map_cons, List.map_cons, List.map_cons, List.map_cons, List.map_cons,
    number, arguments, codeCell_eq, codeCell_eq]
  rfl

theorem splitBare_rowLine (line : Nat) (s : Signature) :
    splitBare false (rowLine line s) =
      [] :: (cells line s).map (fun t => ' ' :: (t ++ [' '])) ++ [[]] := by
  have filled : shown line s ≠ [] := by simp [shown]
  rw [rowLine, cells_eq, List.map_map]
  exact congrArg ([] :: ·) (splitBare_cells filled)

theorem unescape_cells (line : Nat) (s : Signature) :
    (cells line s).map unescape = shown line s := by
  rw [cells_eq, List.map_map]
  exact (List.map_congr_left fun t _ => unescape_cell t).trans (List.map_id _)

/-- Rows are told apart by what they say. -/
theorem rowLine_inj {line line' : Nat} {s s' : Signature} :
    rowLine line s = rowLine line' s' ↔ shown line s = shown line' s' := by
  constructor
  · intro same
    have pieces := splitBare_rowLine line s
    rw [same, splitBare_rowLine] at pieces
    have padded := List.append_cancel_right (List.cons.inj pieces).2
    have equal : cells line' s' = cells line s := by
      refine (List.map_inj_right ?_).mp padded
      intro t u same
      exact List.append_cancel_right (List.cons.inj same).2
    rw [← unescape_cells, ← unescape_cells, equal]
  · intro same
    rw [rowLine, rowLine, cells_eq, cells_eq, same]

/-- The words that an argument is shown as if a comma follows it. -/
def argumentWords (a : Argument) : List Text :=
  ['\x60' :: a.type, a.name ++ ['\x60', ',']]

theorem flatMap_argumentWords_inj {xs ys : List Argument}
    (same : xs.flatMap argumentWords = ys.flatMap argumentWords) : xs = ys := by
  induction xs generalizing ys with
  | nil =>
    cases ys with
    | nil => rfl
    | cons b ys => cases same
  | cons a xs ih =>
    cases ys with
    | nil => cases same
    | cons b ys =>
      obtain ⟨type, same⟩ := List.cons.inj same
      obtain ⟨name, same⟩ := List.cons.inj same
      have first : a = b := by
        cases a
        cases b
        exact congrArg₂ _ (List.cons.inj type).2 (List.append_cancel_right name)
      rw [first, ih same]

theorem intercalate_quoted {arguments : List Argument} (filled : arguments ≠ []) :
    [',', ' '].intercalate (arguments.map fun a => quoted a.render) ++ [','] =
      [' '].intercalate (arguments.flatMap argumentWords) := by
  induction arguments with
  | nil => contradiction
  | cons a arguments ih =>
    have words : quoted a.render ++ [','] =
        ('\x60' :: a.type) ++ [' '] ++ (a.name ++ ['\x60', ',']) := by
      simp [quoted, Argument.render_eq]
    have joined (others : List Text) (more : others ≠ []) :
        [' '].intercalate (argumentWords a ++ others) =
          quoted a.render ++ [','] ++ [' '] ++ [' '].intercalate others := by
      rw [words]
      show [' '].intercalate (('\x60' :: a.type) :: (a.name ++ ['\x60', ',']) :: others) = _
      rw [List.intercalate_cons_cons, List.intercalate_cons_of_ne_nil more]
      simp only [List.append_assoc]
    cases arguments with
    | nil =>
      rw [List.map_singleton, List.intercalate_singleton, words]
      simp [argumentWords]
    | cons b arguments =>
      rw [List.flatMap_cons, joined _ (by simp [argumentWords]), ← ih (by simp), List.map_cons,
        List.map_cons, List.intercalate_cons_cons]
      simp only [List.append_assoc, List.cons_append, List.nil_append]

/-- No word of a type or of a name ends within the word. -/
theorem pieces_argumentWords {arguments : List Argument} (filled : arguments ≠ [])
    (words : ∀ a ∈ arguments, a.Words) :
    Pieces [' '] ([' '].intercalate (arguments.flatMap argumentWords))
      (arguments.flatMap argumentWords) where
  joined := rfl
  some_piece := by
    obtain ⟨a, others, rfl⟩ := List.exists_cons_of_ne_nil filled
    simp [argumentWords]
  undivided piece member := by
    obtain ⟨a, listed, word⟩ := List.mem_flatMap.mp member
    obtain ⟨-, type, -, name⟩ := words a listed
    rw [singleton_infix_iff]
    rcases List.mem_pair.mp word with rfl | rfl
    · simpa using type
    · simpa using name

theorem splitOn_shownArguments {arguments : List Argument} (filled : arguments ≠ [])
    (words : ∀ a ∈ arguments, a.Words) :
    (shownArguments arguments ++ [',']).splitOn ' ' = arguments.flatMap argumentWords := by
  rw [shownArguments, if_neg (by simpa using filled)]
  exact (congrArg _ (intercalate_quoted filled)).trans
    (splitOn_eq_iff.mpr (pieces_argumentWords filled words))

theorem shownArguments_inj {xs ys : List Argument} (words : ∀ a ∈ xs, a.Words)
    (words' : ∀ a ∈ ys, a.Words) : shownArguments xs = shownArguments ys ↔ xs = ys := by
  constructor
  · intro same
    have split : (shownArguments xs ++ [',']).splitOn ' ' =
        (shownArguments ys ++ [',']).splitOn ' ' := by rw [same]
    have dash : (shownArguments [] ++ [',']).splitOn ' ' = [['-', ',']] := by decide
    by_cases filled : xs = []
    · by_cases filled' : ys = []
      · rw [filled, filled']
      · obtain ⟨b, others, rfl⟩ := List.exists_cons_of_ne_nil filled'
        rw [filled, dash, splitOn_shownArguments filled' words'] at split
        cases split
    · by_cases filled' : ys = []
      · obtain ⟨a, others, rfl⟩ := List.exists_cons_of_ne_nil filled
        rw [filled', dash, splitOn_shownArguments filled words] at split
        cases split
      · rw [splitOn_shownArguments filled words, splitOn_shownArguments filled' words'] at split
        exact flatMap_argumentWords_inj split
  · rintro rfl
    rfl

theorem quoted_inj {t u : Text} : quoted t = quoted u ↔ t = u := by
  simp [quoted]

/-- A row shows all of a record that can be read off a line, but whether a modifier that is
shown as a dash is there. -/
theorem shown_inj {line line' : Nat} {s s' : Signature} (valid : s.WellFormed)
    (valid' : s'.WellFormed) : shown line s = shown line' s' ↔
      line = line' ∧ s.modifier.getD "-" = s'.modifier.getD "-" ∧
        s.returnType = s'.returnType ∧ s.name = s'.name ∧ s.arguments = s'.arguments := by
  have words {r : Signature} (valid : r.WellFormed) : ∀ a ∈ r.arguments, a.Words :=
    fun a member => ((Signature.arguments_iff.mp valid.2).2 a member).1
  have arguments := shownArguments_inj (words valid) (words valid')
  simp only [shown, List.cons.injEq, Json.Draft.decimal_inj, quoted_inj, arguments, and_true]

end MethodLines.Report
