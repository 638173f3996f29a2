/-
Tasks: `postTask` of `PostTaskViewController` and `fetchTask` of
`TasksViewController`, and the list of a user's tasks that `UserInfoViewController`
shows.

A task carries the date it was last handed out, at first the date it was posted.
`fetchTask` asks for one task dated yesterday and, once it has one, dates it
today.  The two requests take effect at different moments, and so does the write
of a post; `poolStep` lets them in any order, on one day, and `dayStep` lets days
go by in between.

What the screens do besides is left out, the alerts and labels; the copy of the task
in `UserDefaults` is in `Controller/DailyTask.lean`.
-/
import GoodThing.Controller.Form
import GoodThing.Lib.Clock
import GoodThing.Lib.Run
import GoodThing.Model

namespace GoodThing

open Firestore Calendar

/-- `Date.dateFormatterWithDate`, format `yyyy.MM.dd`. -/
def dateFormatterWithDate (day : Day) : String := day.format

/-- `dateFormatterWithTime.string(from:)`, on the device's clock. -/
def dateFormatterWithTime (instant : Instant) : String := instant.format

/-! ### Posting a task -/

structure TaskForm where
  taskTitle : Option String
  taskContent : Option String
  imageURL : Option String
  recordingURL : Option String
  privacyStatus : Bool
  /-- What `dateFormatterWithTime` prints when the button is tapped. -/
  time : String

/-- The document `postTask` stores under a new id, unless a guard returns first. -/
def postTask (form : TaskForm) (userId : Option String) (date : String) (randomValue : Rat)
    (id : String) : Option Document := do
  let title ← filled form.taskTitle
  let content ← filled form.taskContent
  let userId ← userId
  let data := [
    ("taskId", Value.string id),
    ("taskTitle", .string title),
    ("taskContent", .string content),
    ("taskImage", .string (form.imageURL.getD "")),
    ("taskCreatorId", .string userId),
    ("privacyStatus", .boolean form.privacyStatus),
    ("taskCreatedTime", .string form.time),
    ("randomSelectionValue", .double randomValue),
    ("lastFetchedTime", .string date)]
  match form.recordingURL with
  | some recordURL => return Document.ofFields (data ++ [("taskVoice", .string recordURL)])
  | none => return Document.ofFields data

/-! ### Fetching a task -/

def fetchTaskQuery (yesterdayString : String) (randomValue : Rat) : Query where
  filters := [
    .isEqualTo "lastFetchedTime" (.string yesterdayString),
    .isGreaterThan "randomSelectionValue" (.double randomValue)]
  order := some ("randomSelectionValue", false)
  limit := some 1

/-- The callback of the query: the first document, if it decodes. -/
def fetchedTask (documents : List (String × Document)) : Option (String × GoodThingTasks) :=
  match documents.head? with
  | some (id, d) => (GoodThingTasks.decode d).map fun task => (id, task)
  | none => none

/-- The query of `fetchUserPostedTasks`; a screen without a user asks for `nil`. -/
def fetchUserPostedTasksQuery (userId : Option String) : Query where
  filters := [
    .isEqualTo "taskCreatorId" (userId.elim .null .string),
    .isEqualTo "privacyStatus" (.boolean false)]
  order := some ("taskCreatedTime", true)
  limit := none

/-- The documents behind `userTaskList`: those of the answer that decode. -/
def fetchUserPostedTasks (userId : Option String) (tasks : Collection) :
    List (String × Document) :=
  ((fetchUserPostedTasksQuery userId).getDocuments tasks).filter fun x =>
    (GoodThingTasks.decode x.2).isSome

/-- Where one run of `fetchTask` stands. -/
inductive FetchRun where
  | idle
  /-- The query is on its way, made out of the dates and the number of its call. -/
  | asked (yesterdayString currentDate : String) (randomValue : Rat)
  /-- A task has been handed out; the update of its date is on its way, or lost. -/
  | handed (currentDate id : String) (task : GoodThingTasks)
  /-- The update has been applied. -/
  | updated (currentDate id : String) (task : GoodThingTasks)
  /-- Without a task: the query failed, found nothing, or found what does not decode. -/
  | ended
  deriving DecidableEq

/-- The document a run has handed out. -/
def FetchRun.delivered? : FetchRun → Option String
  | .handed _ id _ | .updated _ id _ => some id
  | _ => none

/-! ### One day -/

/-- The collection `GoodThingTasks`, the posts on their way to it, and every run of `fetchTask`. -/
structure Pool (C : Type) where
  tasks : Collection
  posting : Collection
  runs : C → FetchRun

inductive PoolAction (C : Type) where
  | postTask (form : TaskForm) (userId : Option String) (randomValue : Rat) (id : String)
  | storeTask (id : String)
  | fetchTask (c : C) (randomValue : Rat)
  | getDocuments (c : C)
  | getDocumentsFails (c : C)
  | updateData (c : C)

/-- Nobody has done anything yet. -/
def startPool {C : Type} (tasks : Collection) : Pool C :=
  { tasks := tasks, posting := ∅, runs := fun _ => .idle }

/-- The collection once a task is dated; a task that is not there stays away. -/
def dated (tasks : Collection) (id date : String) : Collection :=
  match tasks.lookup id with
  | some d => tasks.insert id (d.update [("lastFetchedTime", .string date)])
  | none => tasks

section

variable {C : Type} [DecidableEq C]

/-- The pool with one run moved on. -/
def Pool.put (s : Pool C) (c : C) (run : FetchRun) : Pool C :=
  { s with runs := Function.update s.runs c run }

/-- One step on the given day. -/
def poolStep (today : Day) (s : Pool C) : PoolAction C → Pool C
  | .postTask form userId randomValue id =>
      match GoodThing.postTask form userId (dateFormatterWithDate today) randomValue id with
      | some d =>
          if id ∈ s.tasks ∨ id ∈ s.posting then s
          else { s with posting := s.posting.insert id d }
      | none => s
  | .storeTask id =>
      match s.posting.lookup id with
      | some d => { s with tasks := s.tasks.insert id d, posting := s.posting.erase id }
      | none => s
  | .fetchTask c randomValue =>
      match s.runs c, today.previous? with
      | .idle, some yesterday =>
          s.put c (.asked (dateFormatterWithDate yesterday) (dateFormatterWithDate today)
            randomValue)
      | _, _ => s
  | .getDocuments c =>
      match s.runs c with
      | .asked yesterdayString currentDate randomValue =>
          match fetchedTask ((fetchTaskQuery yesterdayString randomValue).getDocuments s.tasks) with
          | some (id, task) => s.put c (.handed currentDate id task)
          | none => s.put c .ended
      | _ => s
  | .getDocumentsFails c =>
      match s.runs c with
      | .asked _ _ _ => s.put c .ended
      | _ => s
  | .updateData c =>
      match s.runs c with
      | .handed currentDate id task =>
          { s.put c (.updated currentDate id task) with tasks := dated s.tasks id currentDate }
      | _ => s

/-! ### Day after day -/

structure PoolDays (C : Type) where
  today : Day
  pool : Pool C

inductive DayAction (C : Type) where
  | newDay
  | act (a : PoolAction C)

def dayStep (s : PoolDays C) : DayAction C → PoolDays C
  | .newDay => { s with today := s.today.next }
  | .act a => { s with pool := poolStep s.today s.pool a }

/-- A day on which there are no tasks yet. -/
def startDays (today : Day) : PoolDays C := { today := today, pool := startPool ∅ }

end

end GoodThing
