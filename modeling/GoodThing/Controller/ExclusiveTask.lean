/-
Exclusive tasks: `ExclusiveTaskCollectionViewCell` and the cells of its table.

Which tasks are done is kept in `selectedTasks`, next to `tasks`, and in the checkmark of
whatever cell displays the row.  Selecting a row changes the list and displays the row
again; the button in the cell changes the cell only.
-/
import GoodThing.Controller.Form
import GoodThing.Lib.Run
import Mathlib.Logic.Function.Basic

namespace GoodThing

structure ExclusiveTaskTableViewCell where
  /-- The row it displays, if it is in the table. -/
  row : Option ℕ
  taskNameLabel : String
  /-- Of the checkmark button. -/
  isSelected : Bool
  deriving DecidableEq

/-- `K` are the cells of the table, whether they are in use or not. -/
structure ExclusiveTaskState (K : Type) where
  tasks : List String
  selectedTasks : List Bool
  taskTextField : Option String
  cells : K → ExclusiveTaskTableViewCell
  /-- How often the row of a task has been selected since the task was added. -/
  selections : ℕ → ℕ
  /-- How often its checkmark has been tapped. -/
  taps : ℕ → ℕ

inductive ExclusiveTaskAction (K : Type) where
  | editText (text : Option String)
  | didTapPostButton
  /-- The row in `selected` is selected; `cell` is what it is displayed in again. -/
  | didSelectRowAt (selected cell : K)
  | didTapCheckmarkButton (cell : K)
  /-- The row comes into the table, or is displayed again. -/
  | cellForRowAt (row : ℕ) (cell : K)
  /-- The cell leaves the table. -/
  | didEndDisplaying (cell : K)

namespace ExclusiveTaskState

variable {K : Type}

def start : ExclusiveTaskState K where
  tasks := ["捐款家扶中心", "微笑", "說聲早安"]
  selectedTasks := [false, false, false]
  taskTextField := none
  cells := fun _ => { row := none, taskNameLabel := "任務名稱", isSelected := false }
  selections := fun _ => 0
  taps := fun _ => 0

/-- `reloadData` takes all cells out of the table. -/
def reloadData (s : ExclusiveTaskState K) : ExclusiveTaskState K :=
  { s with cells := fun k => { s.cells k with row := none } }

def didTapPostButton (s : ExclusiveTaskState K) : ExclusiveTaskState K :=
  match filled s.taskTextField with
  | some newTask =>
      { reloadData s with
        tasks := s.tasks ++ [newTask]
        selectedTasks := s.selectedTasks ++ [false]
        taskTextField := some ""
        selections := Function.update s.selections s.tasks.length 0
        taps := Function.update s.taps s.tasks.length 0 }
  | none => s

variable [DecidableEq K]

/-- A cell that displays the row now leaves the table for this one. -/
def cellForRowAt (s : ExclusiveTaskState K) (row : ℕ) (cell : K) : ExclusiveTaskState K :=
  { s with
    cells := fun k =>
      if k = cell then
        { row := some row
          taskNameLabel := s.tasks.getD row ""
          isSelected := s.selectedTasks.getD row false }
      else if (s.cells k).row = some row then { s.cells k with row := none }
      else s.cells k }

def didSelectRowAt (s : ExclusiveTaskState K) (row : ℕ) (cell : K) : ExclusiveTaskState K :=
  cellForRowAt
    { s with
      selectedTasks := s.selectedTasks.modify row (!·)
      selections := Function.update s.selections row (s.selections row + 1) }
    row cell

def didTapCheckmarkButton (s : ExclusiveTaskState K) (row : ℕ) (cell : K) :
    ExclusiveTaskState K :=
  { s with
    cells := Function.update s.cells cell
      { s.cells cell with isSelected := !(s.cells cell).isSelected }
    taps := Function.update s.taps row (s.taps row + 1) }

end ExclusiveTaskState

open ExclusiveTaskState

variable {K : Type} [DecidableEq K]

/-- Only what is in the table can be tapped, and only rows it counts are asked for. -/
def exclusiveTaskStep (s : ExclusiveTaskState K) :
    ExclusiveTaskAction K → ExclusiveTaskState K
  | .editText text => { s with taskTextField := text }
  | .didTapPostButton => s.didTapPostButton
  | .didSelectRowAt selected cell =>
      match (s.cells selected).row with
      | some row => s.didSelectRowAt row cell
      | none => s
  | .didTapCheckmarkButton cell =>
      match (s.cells cell).row with
      | some row => s.didTapCheckmarkButton row cell
      | none => s
  | .cellForRowAt row cell => if row < s.tasks.length then s.cellForRowAt row cell else s
  | .didEndDisplaying cell =>
      { s with cells := Function.update s.cells cell { s.cells cell with row := none } }

end GoodThing
