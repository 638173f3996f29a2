/-
Profiles: everything that reads or writes `GoodThingUsers`.

Two controllers create a profile, `UserSingupViewController` for an e-mail account
and `UserLoginViewController` for an Apple one; both start it with the same blank
dictionary, in which every list holds one empty string.  Three more change it:
`UserInfoEditionViewController`, the completion of `postTask`, and the transaction
of `addFriend`.  `UserFriendListViewController` reads it.

Whether an Apple sign-in creates a profile is decided by the account document
alone, and a read that fails counts as one that found nothing.
-/
import GoodThing.Controller.Form
import GoodThing.Firebase.Transaction
import GoodThing.Lib.Run
import GoodThing.Model

namespace GoodThing

open Firestore

/-- A uid.  The authentication service never hands out an empty one. -/
abbrev Uid := { id : String // id ≠ "" }

def goodThingUsers : String := "GoodThingUsers"

def userAccountInfo : String := "UserAccountInfo"

/-! ### Registration -/

/-- The dictionary both registrations store. -/
def blankProfile (uid birthday registrationTime : String) : Document :=
  Document.ofFields [
    ("userId", .string uid),
    ("userName", .string ""),
    ("birthday", .string birthday),
    ("registrationTime", .string registrationTime),
    ("introduction", .string ""),
    ("favoriteSentence", .string ""),
    ("latestPublishedTaskId", .string ""),
    ("groupsList", .strings [""]),
    ("goodSentences", .strings [""]),
    ("friends", .strings [""]),
    ("articlesCollection", .strings [""]),
    ("postedTasksList", .strings [""]),
    ("postedMemoryList", .strings [""])]

/-- The sign-up fields when `postUserData` runs, and what the two date formatters print. -/
structure SingupForm where
  email : Option String
  password : Option String
  birthday : String
  registrationTime : String

/-- The write of `postUserData`, unless its guard returns first. -/
def postUserData (form : SingupForm) (currentUser : Option Uid) : Option Write := do
  let _ ← filled form.email
  let _ ← filled form.password
  let uid ← currentUser
  return .setData goodThingUsers uid.1 (blankProfile uid.1 form.birthday form.registrationTime)

/-- What an Apple credential says about its user. -/
structure AppleInfo where
  appleId : String
  fullName : String
  email : String
  /-- What `dateFormatterWithTime` prints when the account read comes back. -/
  registrationTime : String

def accountData (userId : Uid) (info : AppleInfo) : Document :=
  Document.ofFields [
    ("fullName", .string info.fullName),
    ("email", .string info.email),
    ("appleId", .string info.appleId),
    ("userId", .string userId.1)]

/-- The profile write of `saveUserInfoToFirestore`. -/
def profileWrite (userId : Uid) (info : AppleInfo) : Write :=
  .setData goodThingUsers userId.1 (blankProfile userId.1 "" info.registrationTime)

/-- The writes of `saveUserInfoToFirestore` once the account read has come back. -/
def saveUserInfoToFirestore (userId : Uid) (info : AppleInfo) (account : Snapshot) : List Write :=
  if account.isFound then
    []
  else
    [.setData userAccountInfo userId.1 (accountData userId info), profileWrite userId info]

/-! ### Changing a profile -/

structure UserInfoForm where
  penName : Option String
  introduction : Option String
  favoriteSentence : Option String

/-- The write of `updateUserInfo`, unless its guard returns first. -/
def updateUserInfo (form : UserInfoForm) (userId : Option Uid) : Option Write := do
  let penName ← filled form.penName
  let introduction ← filled form.introduction
  let favoriteSentence ← filled form.favoriteSentence
  let userId ← userId
  return .updateData goodThingUsers userId.1 [
    ("userName", .string penName),
    ("introduction", .string introduction),
    ("favoriteSentence", .string favoriteSentence)]

/-- The write of `postTask` once its task is stored. -/
def latestPostedTask (userId : Uid) (id : String) : Write :=
  .updateData goodThingUsers userId.1 [("latestPostedTaskId", .string id)]

/-- The list with `id` appended unless it is in it. -/
def addOnce (id : String) (friends : List String) : List String :=
  if friends.contains id then friends else friends ++ [id]

/-- `document.data()?["friends"] as? [String]`. -/
def Snapshot.friends? : Snapshot → Option (List String)
  | .found d => d.strings? "friends"
  | _ => none

/--
The body of the transaction of `addFriend`: `none` if one of its reads fails, else
the updates it asks for.
-/
def addFriendUpdates (taskPosterId completerId : String) (taskPoster completer : Snapshot) :
    Option (List Write) :=
  match taskPoster, completer with
  | .failed, _ => none
  | _, .failed => none
  | _, _ =>
      match Snapshot.friends? taskPoster, Snapshot.friends? completer with
      | some taskPosterFriends, some completerFriends =>
          some [
            .updateData goodThingUsers taskPosterId
              [("friends", .strings (addOnce completerId taskPosterFriends))],
            .updateData goodThingUsers completerId
              [("friends", .strings (addOnce taskPosterId completerFriends))]]
      | _, _ => some []

/--
`addFriend(taskPosterId:completerId:)` as one atomic step: the store, and whether
the completion gets no error.  `reached` says which reads get through.
-/
def addFriend (s : Store) (taskPosterId completerId : String) (reached : String → Bool)
    (commits : Bool) : Except Exception (Store × Bool) := do
  let taskPosterRef ← documentRef goodThingUsers taskPosterId
  let completerRef ← documentRef goodThingUsers completerId
  let taskPoster := s.getDocument taskPosterRef.1 taskPosterRef.2 (reached taskPosterId)
  let completer := s.getDocument completerRef.1 completerRef.2 (reached completerId)
  match addFriendUpdates taskPosterId completerId taskPoster completer with
  | none => return (s, false)
  | some updates =>
      if commits then return (s.applyAll (fun _ => true) updates, true) else return (s, false)

open Firebase (UpdateBlock) in
/-- The block `addFriend` hands to `runTransaction`. -/
def addFriendBlock (taskPosterId completerId : String) :
    UpdateBlock (String × String) Document :=
  .getDocument (goodThingUsers, taskPosterId) fun
    | .error fetchError => .fail fetchError false
    | .ok taskPosterDocument =>
        .getDocument (goodThingUsers, completerId) fun
          | .error fetchError => .fail fetchError false
          | .ok completerDocument =>
              match taskPosterDocument.bind (·.strings? "friends"),
                completerDocument.bind (·.strings? "friends") with
              | some taskPosterFriends, some completerFriends =>
                  .updateData (goodThingUsers, taskPosterId)
                    (·.update [("friends", .strings (addOnce completerId taskPosterFriends))]) <|
                  .updateData (goodThingUsers, completerId)
                    (·.update [("friends", .strings (addOnce taskPosterId completerFriends))])
                    .return
              | _, _ => .return

/-! ### The friend list -/

/-- `fetchUserDetails(userId:)`: the friend whose details arrive, if any do. -/
def fetchUserDetails (read : String × String → Snapshot) (userId : String) :
    Except Exception (Option GoodThingUser) := do
  let ref ← documentRef goodThingUsers userId
  match read ref with
  | .found d => return GoodThingUser.decode d
  | _ => return none

/-- `fetchFriendDetails()`, with every request it leads to. -/
def fetchFriendDetails (read : String × String → Snapshot) (userId : Option Uid) :
    Except Exception (List GoodThingUser) :=
  match userId with
  | none => return []
  | some userId => do
      let ref ← documentRef goodThingUsers userId.1
      match Snapshot.friends? (read ref) with
      | some fetchedFriendIds =>
          return (← fetchedFriendIds.mapM (fetchUserDetails read)).reduceOption
      | none => return []

/-! ### The store and the devices -/

/-- The store, and the `userId` each device keeps in `UserDefaults`. -/
structure UserState (D : Type) where
  store : Store
  userId : D → Option Uid

inductive UserEvent (D : Type) where
  /-- `createUser` has succeeded: `rigister` keeps the uid and calls `postUserData`. -/
  | rigister (device : D) (user : Uid) (form : SingupForm) (currentUser : Option Uid)
      (accepted : Write → Bool)
  /-- `login`, or the Apple authorization, keeps the uid. -/
  | signIn (device : D) (user : Uid)
  /-- The account read of an Apple sign-in comes back. -/
  | saveUserInfo (userId : Uid) (info : AppleInfo) (account : Snapshot)
      (accepted : Write → Bool)
  | updateUserInfo (device : D) (form : UserInfoForm) (accepted : Write → Bool)
  /-- A task of this user has been stored. -/
  | taskPosted (userId : Uid) (id : String) (accepted : Write → Bool)
  | addFriend (taskPosterId completerId : String) (reached : String → Bool) (commits : Bool)

/-- Nobody has registered. -/
def emptyUsers {D : Type} : UserState D := { store := fun _ => ∅, userId := fun _ => none }

def userStep {D : Type} [DecidableEq D] (s : UserState D) : UserEvent D → UserState D
  | .rigister device user form currentUser accepted =>
      { store := s.store.applyAll accepted (postUserData form currentUser).toList
        userId := Function.update s.userId device (some user) }
  | .signIn device user => { s with userId := Function.update s.userId device (some user) }
  | .saveUserInfo userId info account accepted =>
      { s with store := s.store.applyAll accepted (saveUserInfoToFirestore userId info account) }
  | .updateUserInfo device form accepted =>
      { s with
        store := s.store.applyAll accepted (updateUserInfo form (s.userId device)).toList }
  | .taskPosted userId id accepted =>
      { s with store := s.store.applyAll accepted [latestPostedTask userId id] }
  | .addFriend taskPosterId completerId reached commits =>
      match addFriend s.store taskPosterId completerId reached commits with
      | .ok (store, _) => { s with store }
      | .error _ => s

/-- A device opens the friend list; `reached` says which of its reads get through. -/
def openFriendList {D : Type} (s : UserState D) (device : D) (reached : String × String → Bool) :
    Except Exception (List GoodThingUser) :=
  fetchFriendDetails (fun ref => s.store.getDocument ref.1 ref.2 (reached ref)) (s.userId device)

/-- The profile of a user. -/
def profile {D : Type} (s : UserState D) (u : String) : Option Document :=
  s.store.document goodThingUsers u

/-- The friends a profile lists. -/
def friends {D : Type} (s : UserState D) (u : String) : List String :=
  ((profile s u).bind (·.strings? "friends")).getD []

end GoodThing
