/-
Which checkmarks are remembered.

`selectedTasks` counts the selections of a row and nothing else.  A checkmark that has
been tapped is right as long as the cell stays; when the row is displayed again, by a
selection, after a new task or after scrolling, the taps are lost, which is seen unless
their number is even.
-/
import GoodThing.Controller.ExclusiveTask
import Mathlib.Algebra.Ring.Parity
import Mathlib.Data.List.GetD

namespace GoodThing

open Machine ExclusiveTaskState

variable {K : Type} {s : ExclusiveTaskState K}

/-! ### The list -/

theorem getD_modify_self {l : List Bool} {row : ℕ} (h : row < l.length) :
    (l.modify row (!·)).getD row false = !l.getD row false := by
  simp [List.getD_eq_getElem?_getD, h]

theorem getD_modify_of_ne {l : List Bool} {row r : ℕ} (h : r ≠ row) :
    (l.modify row (!·)).getD r false = l.getD r false := by
  simp [List.getD_eq_getElem?_getD, h.symm]

theorem getD_append_false (l : List Bool) (r : ℕ) :
    (l ++ [false]).getD r false = l.getD r false := by
  rcases Nat.lt_trichotomy r l.length with hlt | heq | hgt
  · rw [List.getD_append _ _ _ _ hlt]
  · rw [heq, List.getD_append_right _ _ _ _ le_rfl, List.getD_eq_default _ _ le_rfl]
    simp
  · have hlong : (l ++ [false]).length ≤ r := by
      rw [List.length_append, List.length_singleton]
      omega
    rw [List.getD_eq_default _ _ hlong, List.getD_eq_default _ _ (by omega)]

/-- How the list and the table belong together. -/
structure Listed (s : ExclusiveTaskState K) : Prop where
  length : s.tasks.length = s.selectedTasks.length
  /-- The list counts the selections. -/
  selected : ∀ row, s.selectedTasks.getD row false = true ↔ Odd (s.selections row)
  /-- A cell in the table displays a task, and no two display the same. -/
  shown : ∀ k row, (s.cells k).row = some row → row < s.tasks.length
  sole : ∀ k k' row, (s.cells k).row = some row → (s.cells k').row = some row → k = k'

theorem listed_start : Listed (start : ExclusiveTaskState K) := by
  refine ⟨rfl, ?_, nofun, nofun⟩
  intro row
  have hfalse : (start : ExclusiveTaskState K).selectedTasks.getD row false = false := by
    show ([false, false, false] : List Bool).getD row false = false
    rcases row with _ | _ | _ | n
    · rfl
    · rfl
    · rfl
    · rfl
  rw [hfalse]
  exact iff_of_false Bool.false_ne_true (by simp [start])

/-! ### The steps -/

/-- The list after a selection, before the row is displayed again. -/
theorem Listed.toggle (h : Listed s) {row : ℕ} (hrow : row < s.tasks.length) :
    Listed { s with
      selectedTasks := s.selectedTasks.modify row (!·)
      selections := Function.update s.selections row (s.selections row + 1) } := by
  refine ⟨?_, ?_, h.shown, h.sole⟩
  · show s.tasks.length = (s.selectedTasks.modify row _).length
    rw [List.length_modify]
    exact h.length
  · intro r
    show (s.selectedTasks.modify row _).getD r false = true ↔
      Odd (Function.update s.selections row (s.selections row + 1) r)
    by_cases hr : r = row
    · rw [hr, getD_modify_self (by rw [← h.length]; exact hrow), Function.update_self,
        Nat.odd_add_one, ← h.selected row]
      simp
    · rw [getD_modify_of_ne hr, Function.update_of_ne hr]
      exact h.selected r

/-- Cells that leave the table or stay as they are, and lists that do not change. -/
theorem Listed.of_rows (h : Listed s) {cells : K → ExclusiveTaskTableViewCell} {taps : ℕ → ℕ}
    (hrows : ∀ k r, (cells k).row = some r → (s.cells k).row = some r) :
    Listed { s with cells := cells, taps := taps } := by
  refine ⟨h.length, h.selected, ?_, ?_⟩
  · intro k r hr
    exact h.shown k r (hrows k r hr)
  · intro k k' r hr hr'
    exact h.sole k k' r (hrows k r hr) (hrows k' r hr')

theorem Listed.didTapPostButton (h : Listed s) : Listed s.didTapPostButton := by
  unfold ExclusiveTaskState.didTapPostButton
  cases filled s.taskTextField with
  | none => exact h
  | some newTask =>
      refine ⟨?_, ?_, nofun, nofun⟩
      · simp [h.length]
      · intro r
        show (s.selectedTasks ++ [false]).getD r false = true ↔
          Odd (Function.update s.selections s.tasks.length 0 r)
        rw [getD_append_false]
        by_cases hr : r = s.tasks.length
        · rw [hr, Function.update_self, h.length, List.getD_eq_default _ _ le_rfl]
          simp
        · rw [Function.update_of_ne hr]
          exact h.selected r

section

variable [DecidableEq K]

theorem cells_cellForRowAt_self (s : ExclusiveTaskState K) (row : ℕ) (cell : K) :
    (s.cellForRowAt row cell).cells cell =
      ⟨some row, s.tasks.getD row "", s.selectedTasks.getD row false⟩ := by
  simp [cellForRowAt]

/-- Another cell that is in the table displays another row, as before. -/
theorem cells_cellForRowAt_of_ne {row r : ℕ} {cell k : K} (hk : k ≠ cell)
    (h : ((s.cellForRowAt row cell).cells k).row = some r) :
    r ≠ row ∧ (s.cells k).row = some r ∧ (s.cellForRowAt row cell).cells k = s.cells k := by
  by_cases hrow : (s.cells k).row = some row
  · simp [cellForRowAt, hk, hrow] at h
  · have heq : (s.cellForRowAt row cell).cells k = s.cells k := by
      simp [cellForRowAt, hk, hrow]
    rw [heq] at h
    refine ⟨?_, h, heq⟩
    intro hr
    rw [hr] at h
    exact hrow h

theorem Listed.cellForRowAt (h : Listed s) {row : ℕ} (hrow : row < s.tasks.length) (cell : K) :
    Listed (s.cellForRowAt row cell) := by
  have hcell : ∀ k r, ((s.cellForRowAt row cell).cells k).row = some r →
      (k = cell ∧ r = row) ∨ (k ≠ cell ∧ r ≠ row ∧ (s.cells k).row = some r) := by
    intro k r hr
    by_cases hk : k = cell
    · rw [hk, cells_cellForRowAt_self] at hr
      exact Or.inl ⟨hk, (Option.some.inj hr).symm⟩
    · obtain ⟨hne, hold, -⟩ := cells_cellForRowAt_of_ne hk hr
      exact Or.inr ⟨hk, hne, hold⟩
  refine ⟨h.length, h.selected, ?_, ?_⟩
  · intro k r hr
    rcases hcell k r hr with ⟨-, rfl⟩ | ⟨-, -, hold⟩
    · exact hrow
    · exact h.shown k r hold
  · intro k k' r hr hr'
    rcases hcell k r hr with ⟨hk, heq⟩ | ⟨-, hne, hold⟩
    · rcases hcell k' r hr' with ⟨hk', -⟩ | ⟨-, hne', -⟩
      · rw [hk, hk']
      · exact absurd heq hne'
    · rcases hcell k' r hr' with ⟨-, heq'⟩ | ⟨-, -, hold'⟩
      · exact absurd heq' hne
      · exact h.sole k k' r hold hold'

/-- The cell whose checkmark is tapped, and every other. -/
theorem cells_didTapCheckmarkButton (s : ExclusiveTaskState K) (row : ℕ) (cell k : K) :
    (s.didTapCheckmarkButton row cell).cells k =
      if k = cell then { s.cells cell with isSelected := !(s.cells cell).isSelected }
      else s.cells k := by
  by_cases hk : k = cell
  · simp [didTapCheckmarkButton, hk]
  · simp [didTapCheckmarkButton, hk]

theorem cells_didEndDisplaying {s : ExclusiveTaskState K} {cell k : K} {r : ℕ}
    (hr : ((exclusiveTaskStep s (.didEndDisplaying cell)).cells k).row = some r) :
    (exclusiveTaskStep s (.didEndDisplaying cell)).cells k = s.cells k := by
  by_cases hk : k = cell
  · simp [exclusiveTaskStep, hk] at hr
  · simp [exclusiveTaskStep, hk]

/--
Everything a step can do.  Nothing happens when what is tapped is not in the table or the
row that is asked for does not exist.
-/
theorem exclusiveTaskStep_cases (s : ExclusiveTaskState K) (a : ExclusiveTaskAction K) :
    (exclusiveTaskStep s a = s ∧ (∀ selected cell, a = .didSelectRowAt selected cell →
        (s.cells selected).row = none) ∧
      ∀ row cell, a = .cellForRowAt row cell → ¬ row < s.tasks.length) ∨
    (∃ text, a = .editText text ∧ exclusiveTaskStep s a = { s with taskTextField := text }) ∨
    (a = .didTapPostButton ∧ exclusiveTaskStep s a = s.didTapPostButton) ∨
    (∃ selected cell row, a = .didSelectRowAt selected cell ∧ (s.cells selected).row = some row ∧
      exclusiveTaskStep s a = s.didSelectRowAt row cell) ∨
    (∃ cell row, a = .didTapCheckmarkButton cell ∧ (s.cells cell).row = some row ∧
      exclusiveTaskStep s a = s.didTapCheckmarkButton row cell) ∨
    (∃ row cell, a = .cellForRowAt row cell ∧ row < s.tasks.length ∧
      exclusiveTaskStep s a = s.cellForRowAt row cell) ∨
    (∃ cell, a = .didEndDisplaying cell) := by
  cases a with
  | editText text => exact Or.inr (Or.inl ⟨text, rfl, rfl⟩)
  | didTapPostButton => exact Or.inr (Or.inr (Or.inl ⟨rfl, rfl⟩))
  | didSelectRowAt selected cell =>
      cases hrow : (s.cells selected).row with
      | none =>
          refine Or.inl ⟨by simp only [exclusiveTaskStep, hrow], ?_, nofun⟩
          intro selected' cell' heq
          rw [← (ExclusiveTaskAction.didSelectRowAt.inj heq).1]
          exact hrow
      | some row =>
          refine Or.inr (Or.inr (Or.inr (Or.inl ⟨selected, cell, row, rfl, hrow, ?_⟩)))
          simp only [exclusiveTaskStep, hrow]
  | didTapCheckmarkButton cell =>
      cases hrow : (s.cells cell).row with
      | none => exact Or.inl ⟨by simp only [exclusiveTaskStep, hrow], nofun, nofun⟩
      | some row =>
          refine Or.inr (Or.inr (Or.inr (Or.inr (Or.inl ⟨cell, row, rfl, hrow, ?_⟩))))
          simp only [exclusiveTaskStep, hrow]
  | cellForRowAt row cell =>
      by_cases hrow : row < s.tasks.length
      · refine Or.inr (Or.inr (Or.inr (Or.inr (Or.inr (Or.inl ⟨row, cell, rfl, hrow, ?_⟩)))))
        simp only [exclusiveTaskStep, if_pos hrow]
      · refine Or.inl ⟨by simp only [exclusiveTaskStep, if_neg hrow], nofun, ?_⟩
        intro row' cell' heq
        rw [← (ExclusiveTaskAction.cellForRowAt.inj heq).1]
        exact hrow
  | didEndDisplaying cell =>
      exact Or.inr (Or.inr (Or.inr (Or.inr (Or.inr (Or.inr ⟨cell, rfl⟩)))))

theorem listed_step (s : ExclusiveTaskState K) (a : ExclusiveTaskAction K) (h : Listed s) :
    Listed (exclusiveTaskStep s a) := by
  rcases exclusiveTaskStep_cases s a with ⟨heq, -⟩ | ⟨text, -, heq⟩ | ⟨-, heq⟩ |
    ⟨selected, cell, row, -, hrow, heq⟩ | ⟨cell, row, -, -, heq⟩ | ⟨row, cell, -, hrow, heq⟩ |
    ⟨cell, rfl⟩
  · rw [heq]
    exact h
  · rw [heq]
    exact ⟨h.length, h.selected, h.shown, h.sole⟩
  · rw [heq]
    exact h.didTapPostButton
  · rw [heq]
    have hlt := h.shown selected row hrow
    exact (h.toggle hlt).cellForRowAt hlt cell
  · rw [heq]
    refine h.of_rows ?_
    intro k r hr
    have hcell := cells_didTapCheckmarkButton s row cell k
    by_cases hk : k = cell
    · rw [if_pos hk] at hcell
      have hr' : ((s.didTapCheckmarkButton row cell).cells k).row = some r := hr
      rw [hcell] at hr'
      rw [hk]
      exact hr'
    · rw [if_neg hk] at hcell
      rw [← hcell]
      exact hr
  · rw [heq]
    exact h.cellForRowAt hrow cell
  · refine h.of_rows ?_
    intro k r hr
    rw [← cells_didEndDisplaying hr]
    exact hr

/-! ### The checkmarks -/

/--
There is a flag for each task, and the checkmark of a row in the table tells whether the
number of selections and taps is odd.
-/
def Remembered (s : ExclusiveTaskState K) : Prop :=
  s.tasks.length = s.selectedTasks.length ∧
  ∀ k row, (s.cells k).row = some row →
    ((s.cells k).isSelected = true ↔ Odd (s.selections row + s.taps row))

/-- A row that is displayed again has an even number of taps. -/
def EvenTaps (s : ExclusiveTaskState K) : ExclusiveTaskAction K → Prop
  | .didSelectRowAt selected _ => ∀ row, (s.cells selected).row = some row → Even (s.taps row)
  | .cellForRowAt row _ => row < s.tasks.length → Even (s.taps row)
  | .editText _ | .didTapPostButton | .didTapCheckmarkButton _ | .didEndDisplaying _ => True

theorem odd_iff_odd_add {m n : ℕ} : (Odd m ↔ Odd (m + n)) ↔ Even n := by
  rw [Nat.odd_add]
  tauto

/-- A row that is displayed is right if its taps are even. -/
theorem remembered_cellForRowAt_iff {row : ℕ} (h : Listed s) (cell : K)
    (hother : ∀ k r, r ≠ row → (s.cells k).row = some r →
      ((s.cells k).isSelected = true ↔ Odd (s.selections r + s.taps r))) :
    Remembered (s.cellForRowAt row cell) ↔ Even (s.taps row) := by
  have hcell : ((s.cellForRowAt row cell).cells cell).isSelected = true ↔
      Odd (s.selections row) := by
    rw [cells_cellForRowAt_self]
    exact h.selected row
  refine ⟨?_, ?_⟩
  · intro hP
    have hparity := hP.2 cell row (by rw [cells_cellForRowAt_self])
    exact odd_iff_odd_add.mp (hcell.symm.trans hparity)
  · intro heven
    refine ⟨h.length, ?_⟩
    intro k r hr
    by_cases hk : k = cell
    · rw [hk, cells_cellForRowAt_self] at hr
      obtain rfl : row = r := Option.some.inj hr
      rw [hk, hcell]
      exact odd_iff_odd_add.mpr heven
    · obtain ⟨hne, hold, heq⟩ := cells_cellForRowAt_of_ne hk hr
      rw [heq]
      exact hother k r hne hold

omit [DecidableEq K] in
theorem remembered_didTapPostButton (h : Listed s) (hP : Remembered s) :
    Remembered s.didTapPostButton := by
  refine ⟨h.didTapPostButton.length, ?_⟩
  unfold didTapPostButton
  cases filled s.taskTextField with
  | none => exact hP.2
  | some newTask => exact nofun

/-- A selection counts in the list, and the row is displayed again. -/
theorem remembered_didSelectRowAt_iff {row : ℕ} (h : Listed s) (hP : Remembered s)
    (hrow : row < s.tasks.length) (cell : K) :
    Remembered (s.didSelectRowAt row cell) ↔ Even (s.taps row) := by
  refine remembered_cellForRowAt_iff (h.toggle hrow) cell ?_
  intro k r hne hr
  show _ ↔ Odd (Function.update s.selections row (s.selections row + 1) r + s.taps r)
  rw [Function.update_of_ne hne]
  exact hP.2 k r hr

/-- A tap is seen in the cell, and no other cell displays the row. -/
theorem remembered_didTapCheckmarkButton {row : ℕ} {cell : K} (h : Listed s) (hP : Remembered s)
    (hrow : (s.cells cell).row = some row) : Remembered (s.didTapCheckmarkButton row cell) := by
  refine ⟨h.length, ?_⟩
  intro k r hr
  show _ ↔ Odd (s.selections r + Function.update s.taps row (s.taps row + 1) r)
  have hcell := cells_didTapCheckmarkButton s row cell k
  by_cases hk : k = cell
  · rw [if_pos hk] at hcell
    rw [hcell] at hr ⊢
    obtain rfl : row = r := Option.some.inj (hrow.symm.trans hr)
    rw [Function.update_self, ← Nat.add_assoc, Nat.odd_add_one, ← hP.2 cell row hrow]
    simp
  · rw [if_neg hk] at hcell
    rw [hcell] at hr ⊢
    have hne : r ≠ row := by
      rintro rfl
      exact hk (h.sole k cell r hr hrow)
    rw [Function.update_of_ne hne]
    exact hP.2 k r hr

theorem remembered_step_iff (s : ExclusiveTaskState K) (a : ExclusiveTaskAction K)
    (h : Listed s) (hP : Remembered s) :
    Remembered (exclusiveTaskStep s a) ↔ EvenTaps s a := by
  rcases exclusiveTaskStep_cases s a with ⟨heq, hselect, hdisplay⟩ | ⟨text, rfl, heq⟩ |
    ⟨rfl, heq⟩ | ⟨selected, cell, row, rfl, hrow, heq⟩ | ⟨cell, row, rfl, hrow, heq⟩ |
    ⟨row, cell, rfl, hrow, heq⟩ | ⟨cell, rfl⟩
  · rw [heq]
    refine iff_of_true hP ?_
    cases a with
    | didSelectRowAt selected cell =>
        intro row hrow
        rw [hselect selected cell rfl] at hrow
        cases hrow
    | cellForRowAt row cell => exact fun hlt => absurd hlt (hdisplay row cell rfl)
    | _ => trivial
  · rw [heq]
    exact iff_of_true hP trivial
  · rw [heq]
    exact iff_of_true (remembered_didTapPostButton h hP) trivial
  · rw [heq, remembered_didSelectRowAt_iff h hP (h.shown selected row hrow)]
    refine ⟨?_, fun hguard => hguard row hrow⟩
    intro heven row' hrow'
    rw [← Option.some.inj (hrow.symm.trans hrow')]
    exact heven
  · rw [heq]
    exact iff_of_true (remembered_didTapCheckmarkButton h hP hrow) trivial
  · rw [heq, remembered_cellForRowAt_iff h cell fun k r _ hr => hP.2 k r hr]
    exact ⟨fun heven _ => heven, fun hguard => hguard hrow⟩
  · refine iff_of_true ⟨h.length, ?_⟩ trivial
    intro k r hr
    have hcell := cells_didEndDisplaying hr
    rw [hcell] at hr ⊢
    exact hP.2 k r hr

/--
In every run the checkmarks are remembered exactly when no row is displayed again after
an odd number of taps on its checkmark.
-/
theorem checkmarks_remembered_iff (as : List (ExclusiveTaskAction K)) :
    Always exclusiveTaskStep Remembered start as ↔ Guarded exclusiveTaskStep EvenTaps start as :=
  always_iff_guarded listed_step remembered_step_iff as listed_start ⟨rfl, nofun⟩

end

/-- The checkmark of the first row is tapped, and the row scrolls out of the table and back. -/
theorem tap_forgotten :
    ¬ Always exclusiveTaskStep Remembered (start : ExclusiveTaskState Unit)
      [.cellForRowAt 0 (), .didTapCheckmarkButton (), .didEndDisplaying (),
        .cellForRowAt 0 ()] := by
  intro h
  have hlost := h.last.2 () 0 rfl
  exact absurd (hlost.mpr (by decide)) (by decide)

end GoodThing
