import MethodLines.Batch

/-! Tasks that finish one after the other, each storing its value in a slot of its own.
A slot holds what its own task gave, or nothing yet, whatever the order; so once all have
finished the slots do not show in which order that happened. -/
namespace MethodLines.Batch

variable {α : Type} {tasks : Array (Logged α)} {slots : Array (Option α)} {order : List Nat}

/-- One step: a task finishes, and the others go on from the slots with its value. -/
theorem runTasks_cons_value {i : Nat} {task : Logged α} (present : tasks[i]? = some task) :
    (runTasks tasks (i :: order) slots).value =
      (runTasks tasks order (slots.setIfInBounds i (some task.value))).value := by
  rw [runTasks, present]
  rfl

/-- A place without a task changes nothing. -/
theorem runTasks_cons_absent {i : Nat} (absent : tasks[i]? = none) :
    runTasks tasks (i :: order) slots = runTasks tasks order slots := by
  rw [runTasks, absent]

/-- The run: a slot whose task has finished holds its value, every other slot what it
held before. -/
theorem getElem?_runTasks_value (sized : slots.size = tasks.size) (i : Nat) :
    (runTasks tasks order slots).value[i]? =
      if i ∈ order then tasks[i]?.map fun task => some task.value else slots[i]? := by
  induction order generalizing slots with
  | nil => rfl
  | cons j order ih =>
    cases found : tasks[j]? with
    | none =>
      rw [runTasks_cons_absent found, ih sized]
      by_cases same : i = j
      · subst same
        have outside : slots[i]? = none := by
          rw [Array.getElem?_eq_none_iff, sized, ← Array.getElem?_eq_none_iff]
          exact found
        simp [found, outside]
      · simp [same]
    | some task =>
      have sized' : (slots.setIfInBounds j (some task.value)).size = tasks.size := by
        rw [Array.size_setIfInBounds, sized]
      rw [runTasks_cons_value found, ih sized']
      by_cases same : i = j
      · subst same
        have inside : i < slots.size := by
          obtain ⟨bound, _⟩ := Array.getElem?_eq_some_iff.mp found
          rwa [sized]
        simp [found, inside]
      · simp [same, Ne.symm same]

/-- When every task has finished, the slots hold all values in the order of the tasks. -/
theorem runTasks_value_of_perm (complete : order.Perm (List.range tasks.size)) :
    (runTasks tasks order (Array.replicate tasks.size none)).value =
      tasks.map fun task => some task.value := by
  apply Array.ext_getElem?
  intro i
  rw [getElem?_runTasks_value (by simp), Array.getElem?_map]
  by_cases present : i < tasks.size
  · rw [if_pos (complete.mem_iff.mpr (List.mem_range.mpr present))]
  · simp [present]

theorem filterMap_runTasks_value (complete : order.Perm (List.range tasks.size)) :
    (runTasks tasks order (Array.replicate tasks.size none)).value.toList.filterMap id =
      tasks.toList.map Logged.value := by
  rw [runTasks_value_of_perm complete, Array.toList_map, List.filterMap_map]
  exact congrFun List.filterMap_eq_map' tasks.toList

end MethodLines.Batch
