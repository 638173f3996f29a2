/-
How long the task of the day is kept.

Not at all.  A description is never read as a day, so there is no saved date when the
screen opens, and the task is fetched again even a second after it was saved.  The rest
of the way is right: had the day been saved as it is read, the task would be kept until
midnight (`kept_if_saved_as_day`).
-/
import GoodThing.Controller.DailyTask
import GoodThing.Proofs.TaskPool

namespace GoodThing

open Firestore Calendar

/-- A task saved at `s` is restored at `e` if that is the same day, and else fetched anew. -/
def KeptForTheDay (task : GoodThingTasks) (s e : Instant) (defaults : TaskDefaults) : Prop :=
  (s.day = e.day → TasksViewController.viewDidLoad e defaults = .restored task) ∧
  (s.day ≠ e.day → TasksViewController.viewDidLoad e defaults = .fetchTask)

/-- The saved date cannot be read. -/
theorem fetchDate_saved (zone : Zone) (s : Instant) (task : GoodThingTasks)
    (defaults : TaskDefaults) :
    fetchDateFromUserDefaults (saveTaskToUserDefaults zone s task defaults) = none := by
  simp only [fetchDateFromUserDefaults, saveTaskToUserDefaults, Option.bind_some, dateFromString]
  rw [Instant.parse?_description]
  rfl

/-- The task itself is saved as it should be. -/
theorem fetchTask_saved (zone : Zone) (s : Instant) (task : GoodThingTasks)
    (defaults : TaskDefaults) :
    fetchTaskFromUserDefaults (saveTaskToUserDefaults zone s task defaults) = some task :=
  taskCodec.decode_encode task

/-- Whenever the screen opens, it fetches a task. -/
theorem viewDidLoad_saved (zone : Zone) (s e : Instant) (task : GoodThingTasks)
    (defaults : TaskDefaults) :
    TasksViewController.viewDidLoad e (saveTaskToUserDefaults zone s task defaults) =
      .fetchTask := by
  unfold TasksViewController.viewDidLoad
  rw [fetchDate_saved]

/-- With the day saved as it is read, the task is kept for the day. -/
theorem kept_if_saved_as_day (zone : Zone) (s e : Instant) (task : GoodThingTasks)
    (defaults : TaskDefaults) :
    KeptForTheDay task s e { saveTaskToUserDefaults zone s task defaults with
      taskDate := some (dateFormatterWithDate s.day) } := by
  have hdate : dateFromString (dateFormatterWithDate s.day) = some (.midnight s.day) := by
    unfold dateFromString dateFormatterWithDate
    rw [Day.parse?_format]
    rfl
  have htask := fetchTask_saved zone s task defaults
  unfold KeptForTheDay TasksViewController.viewDidLoad
  simp only [fetchDateFromUserDefaults, Option.bind_some, hdate, isDateInToday, Instant.midnight,
    decide_eq_true_eq]
  refine ⟨?_, ?_⟩
  · intro hsame
    rw [if_pos hsame]
    simp only [fetchTaskFromUserDefaults, saveTaskToUserDefaults] at htask ⊢
    rw [htask]
  · intro hdiffer
    rw [if_neg hdiffer]

/--
The task of the day is kept as it should be exactly when the screen opens on another
day than that on which the task was saved.
-/
theorem kept_for_the_day_iff (zone : Zone) (s e : Instant) (task : GoodThingTasks)
    (defaults : TaskDefaults) :
    KeptForTheDay task s e (saveTaskToUserDefaults zone s task defaults) ↔ s.day ≠ e.day := by
  unfold KeptForTheDay
  rw [viewDidLoad_saved]
  refine ⟨?_, fun h => ⟨fun hsame => absurd hsame h, fun _ => rfl⟩⟩
  intro h hsame
  cases h.1 hsame

/-- Taipei is eight hours ahead of UTC. -/
def taipei : Zone := ⟨28800, by omega, by omega⟩

/-- Ten in the morning, and a minute later. -/
def tenOClock : Instant := ⟨october14, 36000, by omega⟩

def oneMinuteLater : Instant := ⟨october14, 36060, by omega⟩

/-- A task as it is fetched. -/
def smile : GoodThingTasks :=
  ⟨"t1", "早安", "對鄰居說早安", some "", none, "aaron", "2023.10.13 09:00"⟩

/-- A task saved at ten is fetched again a minute later. -/
theorem daily_task_forgotten :
    ¬ KeptForTheDay smile tenOClock oneMinuteLater
      (saveTaskToUserDefaults taipei tenOClock smile ⟨none, none⟩) := by
  intro h
  have hrestored := h.1 rfl
  rw [viewDidLoad_saved] at hrestored
  cases hrestored

end GoodThing
