/-
Groups: `PostGroupViewController` and the join button of `DetailGroupViewController`.

`modifyCurrentPeopleNumber` reads the group's document, changes its own copy, and
writes the whole copy back.  Of its three branches only the last returns before
the write: a user who is already in still writes the group back as it was read.

The alert texts are left out; each branch shows one of its own, so the branch
stands for it.  `contains` compares user ids with Lean's equality, which stands for Swift's `==`;
that one also takes canonically equivalent texts for the same.
-/
import GoodThing.Controller.Form
import GoodThing.Lib.Rmw
import GoodThing.Lib.Swift
import GoodThing.Model

namespace GoodThing

open Firestore

/-! ### Posting a group -/

/-- The fields of the form, and the three times the date formatter printed. -/
structure GroupForm where
  groupName : Option String
  groupLocation : Option String
  peopleNumber : Option String
  groupContent : Option String
  groupTime : String
  deadLine : String
  createdTime : String

/-- Everyone a new group starts with. -/
def seedParticipants : List String := ["Aaron", "Eric", "Hank", "Ella"]

/-- The document `postGroup` stores under a new id, unless a guard returns first. -/
def postGroup (form : GroupForm) (id : String) : Option Document := do
  let title ← filled form.groupName
  let location ← filled form.groupLocation
  let peopleNumberLimitString ← filled form.peopleNumber
  let content ← filled form.groupContent
  let peopleNumberLimit ← Swift.parseInt peopleNumberLimitString
  let participants := seedParticipants
  return Document.ofFields [
    ("groupID", .string id),
    ("groupTime", .string form.groupTime),
    ("groupName", .string title),
    ("groupContent", .string content),
    ("groupLocation", .string location),
    ("organizerID", .string "Aaron"),
    ("createdTime", .string form.createdTime),
    ("deadLine", .string form.deadLine),
    ("peopleNumberLimit", .integer peopleNumberLimit),
    ("participants", .strings participants),
    ("currentPeopleNumber", .integer (Int64.ofNat participants.length))]

/-! ### Joining a group -/

/-- How one run of `modifyCurrentPeopleNumber` ends. -/
inductive JoinOutcome where
  /-- There is no document, or it does not decode. -/
  | unreadable
  | joined
  | alreadyJoined
  | full
  /-- The increment overflowed, which stops the app. -/
  | trapped
  deriving DecidableEq

/--
The callback of `getDocument` in `modifyCurrentPeopleNumber(userId:)`: how the run
ends, and the document it asks to be stored.
-/
def modifyCurrentPeopleNumber (document : Option Document) (userId : String) :
    JoinOutcome × Option (Option Document) :=
  match document.bind GoodThingGroup.decode with
  | none => (.unreadable, none)
  | some group =>
      if !group.participants.contains userId
          && decide (group.currentPeopleNumber < group.peopleNumberLimit) then
        match Swift.succ? group.currentPeopleNumber with
        | none => (.trapped, none)
        | some currentPeopleNumber =>
            (.joined, some (some { group with
              currentPeopleNumber := currentPeopleNumber
              participants := group.participants ++ [userId] }.encode))
      else if group.participants.contains userId then
        -- no `return` here: the group goes back as it was read
        (.alreadyJoined, some (some group.encode))
      else
        (.full, none)

/-- What the join button passes, as no caller names a user. -/
def defaultUserId : String := "王花月"

/-- The stored group and every run of the join button, on any number of devices. -/
abbrev GroupState (C : Type) := Rmw.State C (Option Document) String

/-- One step of one run. -/
abbrev groupStep {C : Type} [DecidableEq C] : GroupState C → Rmw.Action C → GroupState C :=
  Rmw.step modifyCurrentPeopleNumber

/-- The participants a stored document lists. -/
def participants (document : Option Document) : List String :=
  match document.bind GoodThingGroup.decode with
  | some group => group.participants
  | none => []

end GoodThing
