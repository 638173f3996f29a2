/-
The task of the day: `TasksViewController.viewDidLoad` and what it keeps in
`UserDefaults`.

A task that has been fetched is kept with the date, and shown again until the day is
over.  The date is written as `Date().description` and read with
`dateFormatterWithDate`.
-/
import GoodThing.Controller.Task

namespace GoodThing

open Firestore Calendar

/-- The two entries of `UserDefaults`. -/
structure TaskDefaults where
  /-- The JSON object of the task. -/
  currentTask : Option Document
  taskDate : Option String

/-- `JSONEncoder` writes the coding keys, and leaves out what is `nil`. -/
def saveTaskToUserDefaults (zone : Zone) (now : Instant) (task : GoodThingTasks)
    (_defaults : TaskDefaults) : TaskDefaults where
  currentTask := some task.encode
  taskDate := some (now.description zone)

def fetchTaskFromUserDefaults (defaults : TaskDefaults) : Option GoodThingTasks :=
  defaults.currentTask.bind GoodThingTasks.decode

/-- `dateFormatterWithDate.date(from:)`: the midnight at which the day begins. -/
def dateFromString (dateString : String) : Option Instant :=
  (Day.parse? dateString).map Instant.midnight

def fetchDateFromUserDefaults (defaults : TaskDefaults) : Option Instant :=
  defaults.taskDate.bind dateFromString

/-- `Calendar.current.isDateInToday`. -/
def isDateInToday (now date : Instant) : Bool := date.day = now.day

/-- What `viewDidLoad` does about the task. -/
inductive DailyTask where
  | restored (task : GoodThingTasks)
  | fetchTask
  deriving DecidableEq

def TasksViewController.viewDidLoad (now : Instant) (defaults : TaskDefaults) : DailyTask :=
  match fetchDateFromUserDefaults defaults with
  | some savedDate =>
      if isDateInToday now savedDate then
        match fetchTaskFromUserDefaults defaults with
        | some savedTask => .restored savedTask
        | none => .fetchTask
      else .fetchTask
  | none => .fetchTask

end GoodThing
