/-
Responses: `ReplyTaskViewController` and `TaskResponseReceptionViewController`.

Whoever has been handed a task may answer it; the answer goes into a collection under
the task.  The author of the task opens the reception screen, which finds the task
posted last, shows the response it read last, and offers to make its author a friend.

`appStep` puts the steps of all screens on this way together: registering, posting a
task, fetching it on a later day, answering it, and agreeing.  A device keeps
`latestPostedTaskId` next to the `userId`; who is signed in, `Auth` knows by itself.
-/
import GoodThing.Controller.Task
import GoodThing.Controller.User

namespace GoodThing

open Firestore Calendar

/-! ### Replying -/

structure ReplyForm where
  replyTitle : Option String
  replyContent : Option String
  recordingURL : Option String
  imageURL : Option String
  /-- What `dateFormatterWithTime` prints when the button is tapped. -/
  time : String

/--
The task `replyTask` answers and the document it stores under it, unless a guard
returns first.  A missing `userId` is stored as null.
-/
def replyTask (form : ReplyForm) (task : Option GoodThingTasks) (userId : Option String) :
    Option (String × Document) := do
  let title ← filled form.replyTitle
  let content ← filled form.replyContent
  let task ← task
  let taskDocumentID ← filled (some task.taskId)
  return (taskDocumentID, Document.ofFields [
    ("taskPosterId", .string task.taskCreatorId),
    ("completerId", userId.elim .null .string),
    ("completionStatus", .string ""),
    ("responseRecording", .string (form.recordingURL.getD "")),
    ("responseImage", .string (form.imageURL.getD "")),
    ("responseTitle", .string title),
    ("responseContent", .string content),
    ("responseTime", .string form.time)])

/-! ### Reading the responses -/

def responsesQuery : Query where
  filters := []
  order := none
  limit := none

/-- The callback of `fetchResponsesForTask`: each response that decodes replaces the one before. -/
def fetchResponsesForTask (responses : Collection) (completerId : Option String) : Option String :=
  (responsesQuery.getDocuments responses).foldl
    (fun completerId x =>
      match GoodThingTasksResponses.decode x.2 with
      | some response => some response.completerId
      | none => completerId)
    completerId

/-- What the reception screen is waiting for. -/
inductive ReceptionRequest where
  | nothing
  /-- `fetchLatestTaskIDFromFirebase` reads the profile of this user. -/
  | latestTask (userId : String)
  | responses (taskId : String)
  deriving DecidableEq

structure Reception where
  request : ReceptionRequest
  completerId : Option String

/-! ### All screens together -/

/-- `D` are the devices, `C` the runs of `fetchTask` on them. -/
structure AppState (D C : Type) where
  users : UserState D
  days : PoolDays C
  /-- Whose `postTask` a task on its way is, until its completion has run. -/
  posters : String → Option (D × Uid)
  /-- The responses to each task, and those on their way. -/
  responses : String → Collection
  replying : String → Collection
  latestPostedTaskId : D → Option String
  /-- `Auth.auth().currentUser`. -/
  currentUser : D → Option Uid
  reception : D → Reception

inductive AppAction (D C : Type) where
  /-- `createUser` has succeeded, which signs the user in. -/
  | rigister (device : D) (user : Uid) (form : SingupForm) (accepted : Write → Bool)
  | signIn (device : D) (user : Uid)
  | saveUserInfo (userId : Uid) (info : AppleInfo) (account : Snapshot) (accepted : Write → Bool)
  | updateUserInfo (device : D) (form : UserInfoForm) (accepted : Write → Bool)
  | newDay
  | postTask (device : D) (form : TaskForm) (randomValue : Rat) (id : String)
  | storeTask (id : String)
  /-- The completion of `postTask`, and the write to the profile it asks for. -/
  | postTaskCompletes (id : String) (accepted : Write → Bool)
  | fetchTask (c : C) (randomValue : Rat)
  | getDocuments (c : C)
  | getDocumentsFails (c : C)
  | updateData (c : C)
  | replyTask (c : C) (form : ReplyForm) (id : String)
  | storeResponse (taskId id : String)
  /-- `viewDidLoad` of the reception screen. -/
  | openReception (device : D)
  | receptionAnswered (device : D) (reached : Bool)
  | agreeButtonTapped (device : D) (reached : String → Bool) (commits : Bool)

/-- The task a run of `fetchTask` has been handed. -/
def FetchRun.task? : FetchRun → Option GoodThingTasks
  | .handed _ _ task | .updated _ _ task => some task
  | _ => none

def startApp {D C : Type} [DecidableEq C] (today : Day) : AppState D C where
  users := emptyUsers
  days := startDays today
  posters := fun _ => none
  responses := fun _ => ∅
  replying := fun _ => ∅
  latestPostedTaskId := fun _ => none
  currentUser := fun _ => none
  reception := fun _ => ⟨.nothing, none⟩

section

variable {D C : Type} [DecidableEq D] [DecidableEq C]

/-- The first request of the reception screen.  Without a user it is for an empty path. -/
def viewDidLoad (latestTaskId : Option String) (currentUser : Option Uid) :
    Except Exception ReceptionRequest :=
  match latestTaskId with
  | some taskId => do
      let ref ← documentRef "GoodThingTasks" taskId
      return .responses ref.2
  | none => do
      let ref ← documentRef goodThingUsers (currentUser.elim "" (·.1))
      return .latestTask ref.2

/-- A request of the reception screen is answered. -/
def AppState.receive (s : AppState D C) (reached : Bool) (screen : Reception) : Reception :=
  match screen.request with
  | .nothing => screen
  | .latestTask userId =>
      match s.users.store.getDocument goodThingUsers userId reached with
      | .found d =>
          match (d.string? "latestPostedTaskId").map (documentRef "GoodThingTasks") with
          | some (.ok ref) => { screen with request := .responses ref.2 }
          | _ => { screen with request := .nothing }
      | _ => { screen with request := .nothing }
  | .responses taskId =>
      if reached then
        ⟨.nothing, fetchResponsesForTask (s.responses taskId) screen.completerId⟩
      else { screen with request := .nothing }

/-- One step; `home` says which device a run of `fetchTask` is on. -/
def appStep (home : C → D) (s : AppState D C) : AppAction D C → AppState D C
  | .rigister device user form accepted =>
      { s with
        users := userStep s.users (.rigister device user form (some user) accepted)
        currentUser := Function.update s.currentUser device (some user) }
  | .signIn device user =>
      { s with
        users := userStep s.users (.signIn device user)
        currentUser := Function.update s.currentUser device (some user) }
  | .saveUserInfo userId info account accepted =>
      { s with users := userStep s.users (.saveUserInfo userId info account accepted) }
  | .updateUserInfo device form accepted =>
      { s with users := userStep s.users (.updateUserInfo device form accepted) }
  | .newDay => { s with days := dayStep s.days .newDay }
  | .postTask device form randomValue id =>
      match s.users.userId device with
      | some user =>
          let days := dayStep s.days (.act (.postTask form (some user.1) randomValue id))
          if id ∈ days.pool.posting ∧ id ∉ s.days.pool.posting then
            { s with days, posters := Function.update s.posters id (some (device, user)) }
          else { s with days }
      | none => s
  | .storeTask id => { s with days := dayStep s.days (.act (.storeTask id)) }
  | .postTaskCompletes id accepted =>
      match s.posters id with
      | some (device, user) =>
          if id ∈ s.days.pool.tasks then
            { s with
              users := userStep s.users (.taskPosted user id accepted)
              posters := Function.update s.posters id none
              latestPostedTaskId := Function.update s.latestPostedTaskId device (some id) }
          else s
      | none => s
  | .fetchTask c randomValue => { s with days := dayStep s.days (.act (.fetchTask c randomValue)) }
  | .getDocuments c => { s with days := dayStep s.days (.act (.getDocuments c)) }
  | .getDocumentsFails c => { s with days := dayStep s.days (.act (.getDocumentsFails c)) }
  | .updateData c => { s with days := dayStep s.days (.act (.updateData c)) }
  | .replyTask c form id =>
      match replyTask form (s.days.pool.runs c).task? ((s.users.userId (home c)).map (·.1)) with
      | some (taskId, d) =>
          if id ∈ s.responses taskId ∨ id ∈ s.replying taskId then s
          else
            { s with
              replying := Function.update s.replying taskId ((s.replying taskId).insert id d) }
      | none => s
  | .storeResponse taskId id =>
      match (s.replying taskId).lookup id with
      | some d =>
          { s with
            responses := Function.update s.responses taskId ((s.responses taskId).insert id d)
            replying := Function.update s.replying taskId ((s.replying taskId).erase id) }
      | none => s
  | .openReception device =>
      match viewDidLoad (s.latestPostedTaskId device) (s.currentUser device) with
      | .ok request => { s with reception := Function.update s.reception device ⟨request, none⟩ }
      | .error _ => s
  | .receptionAnswered device reached =>
      { s with
        reception := Function.update s.reception device
          (s.receive reached (s.reception device)) }
  | .agreeButtonTapped device reached commits =>
      match s.currentUser device, (s.reception device).completerId with
      | some taskPosterId, some completerId =>
          { s with
            users := userStep s.users (.addFriend taskPosterId.1 completerId reached commits) }
      | _, _ => s

end

end GoodThing
