/-
What a profile is read for: `fetchUserInfo` of `UserInfoViewController`, and the task a
user has posted last, which `postTask` keeps in two places.

`fetchUserInfo` looks for the profile by its `userId`, in a collection that is not the
one all profiles are written to.

When a task is stored, `postTask` keeps its id in `UserDefaults` and asks for an update
of the profile; both under `latestPostedTaskId`, where `TaskResponseReceptionViewController`
reads them.  The profile's own field is `latestPublishedTaskId`.
-/
import GoodThing.Controller.Response

namespace GoodThing

open Firestore

/-! ### Showing a profile -/

def fetchUserInfoQuery (userId : Option String) : Query where
  filters := [.isEqualTo "userId" (userId.elim .null .string)]
  order := none
  limit := none

/-- `fetchUserInfo` for this user: `userInfo` when its callback has run. -/
def fetchUserInfo (s : Store) (user : Option GoodThingUser) (reached : Bool)
    (userInfo : Option GoodThingUser) : Option GoodThingUser :=
  if reached then
    match ((fetchUserInfoQuery (user.map (·.userId))).getDocuments (s "GoodThingUser")).head? with
    | some document =>
        match GoodThingUser.decode document.2 with
        | some fetchedUserInfo => some fetchedUserInfo
        | none => userInfo
    | none => userInfo
  else userInfo

/-! ### The task posted last -/

/-- One user's posts on one device. -/
structure LatestTaskState where
  store : Store
  /-- The entry of `UserDefaults`. -/
  latestPostedTaskId : Option String
  /-- The ids of the tasks posted, the oldest first. -/
  posts : List String
  /-- Tasks whose `setData` has not completed. -/
  storing : Collection
  /-- Tasks whose update of the profile has not completed. -/
  updating : List String
  /-- Tasks whose update has, in the order of completion. -/
  updated : List String

inductive LatestTaskAction where
  | postTask (form : TaskForm) (date : String) (randomValue : Rat) (id : String)
  | setDataCompletes (id : String)
  | updateDataCompletes (id : String)

/-- Nothing has been posted on the device. -/
def startPosting (store : Store) : LatestTaskState where
  store := store
  latestPostedTaskId := none
  posts := []
  storing := ∅
  updating := []
  updated := []

/-- A generated id is not empty and was not given before. -/
def latestTaskStep (user : Uid) (s : LatestTaskState) : LatestTaskAction → LatestTaskState
  | .postTask form date randomValue id =>
      if id = "" ∨ id ∈ s.posts then s
      else
        match postTask form (some user.1) date randomValue id with
        | some d => { s with posts := s.posts ++ [id], storing := s.storing.insert id d }
        | none => s
  | .setDataCompletes id =>
      match s.storing.lookup id with
      | some d =>
          { s with
            store := s.store.setData "GoodThingTasks" id d
            latestPostedTaskId := some id
            storing := s.storing.erase id
            updating := id :: s.updating }
      | none => s
  | .updateDataCompletes id =>
      if id ∈ s.updating then
        { s with
          store := s.store.apply (latestPostedTask user id)
          updating := s.updating.erase id
          updated := s.updated ++ [id] }
      else s

/-- What `fetchLatestTaskIDFromFirebase` reads from the profile. -/
def fetchLatestTaskIDFromFirebase (s : Store) (userId : String) : Option String :=
  (s.document goodThingUsers userId).bind (·.string? "latestPostedTaskId")

end GoodThing
