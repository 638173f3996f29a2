/-
Profiles that are written and not found, and a task that is kept under another name.

Registrations and updates leave in `GoodThingUsers` what they should
(`profile_after_updates`), and nobody ever writes to `GoodThingUser`, where
`fetchUserInfo` looks; so it finds nothing, whatever has happened before.

The id of the task posted last is kept in `latestPostedTaskId`, which is no coding key
of a profile, so what a profile decodes to never knows of it.
-/
import GoodThing.Controller.Profile
import GoodThing.Proofs.Decoding

namespace GoodThing

open Firestore Machine

variable {D : Type} [DecidableEq D]

/-! ### Registering and updating -/

/-- A registration that gets as far as its writes. -/
inductive Registration (D : Type) where
  | postUserData (device : D) (form : SingupForm) (email : (filled form.email).isSome = true)
      (password : (filled form.password).isSome = true)
  | saveUserInfoToFirestore (info : AppleInfo) (account : Snapshot)
      (absent : account.isFound = false)

def Registration.event (uid : Uid) : Registration D → UserEvent D
  | .postUserData device form _ _ => .rigister device uid form (some uid) fun _ => true
  | .saveUserInfoToFirestore info account _ => .saveUserInfo uid info account fun _ => true

def Registration.registrationTime : Registration D → String
  | .postUserData _ form _ _ => form.registrationTime
  | .saveUserInfoToFirestore info _ _ => info.registrationTime

/-- An `updateUserInfo` that succeeds. -/
structure ProfileUpdate (D : Type) where
  device : D
  penName : String
  introduction : String
  favoriteSentence : String
  penName_ne : penName ≠ ""
  introduction_ne : introduction ≠ ""
  favoriteSentence_ne : favoriteSentence ≠ ""

/-- The user signs in on the device and updates the profile there. -/
def ProfileUpdate.events (uid : Uid) (u : ProfileUpdate D) : List (UserEvent D) := [
  .signIn u.device uid,
  .updateUserInfo u.device ⟨some u.penName, some u.introduction, some u.favoriteSentence⟩
    fun _ => true]

/-- Everything up to now: other events, a registration, and updates. -/
def profileHistory (before : List (UserEvent D)) (uid : Uid) (registration : Registration D)
    (updates : List (ProfileUpdate D)) : UserState D :=
  run userStep emptyUsers
    (before ++ registration.event uid :: updates.flatMap (·.events uid))

/-- The user of a registration, with the texts of the last update, if there is one. -/
structure IsProfile (uid : Uid) (registrationTime : String) (last : Option (ProfileUpdate D))
    (u : GoodThingUser) : Prop where
  userId : u.userId = uid.1
  registrationTime : u.registrationTime = registrationTime
  userName : u.userName = (last.map (·.penName)).getD ""
  introduction : u.introduction = (last.map (·.introduction)).getD ""
  favoriteSentence : u.favoriteSentence = (last.map (·.favoriteSentence)).getD ""

/-! ### What is in the profile -/

/-- The profile is stored as it should be. -/
def HoldsProfile (uid : Uid) (registrationTime : String) (last : Option (ProfileUpdate D))
    (s : UserState D) : Prop :=
  ∃ d u, profile s uid.1 = some d ∧ userCodec.Stores u d ∧ IsProfile uid registrationTime last u

theorem holdsProfile_registration (uid : Uid) (registration : Registration D) (s : UserState D) :
    HoldsProfile uid registration.registrationTime none
      (userStep s (registration.event uid)) := by
  have hblank : ∀ birthday time, userCodec.Stores
      ⟨uid.1, "", birthday, time, "", "", "", [""], [""], [""], [""], [""], [""]⟩
      (blankProfile uid.1 birthday time) := fun _ _ _ _ => rfl
  cases registration with
  | postUserData device form email password =>
      refine ⟨blankProfile uid.1 form.birthday form.registrationTime, _, ?_, hblank _ _,
        ⟨rfl, rfl, rfl, rfl, rfl⟩⟩
      rcases postUserData_cases form (some uid) with ⟨uid', huid, -, -, hw⟩ | ⟨hguard, -⟩
      · obtain rfl : uid = uid' := Option.some.inj huid
        simp [profile, userStep, Registration.event, hw, Store.applyAll_cons, Store.apply,
          Store.document_setData]
      · exact absurd ⟨email, password, rfl⟩ hguard
  | saveUserInfoToFirestore info account absent =>
      refine ⟨blankProfile uid.1 "" info.registrationTime, _, ?_, hblank _ _,
        ⟨rfl, rfl, rfl, rfl, rfl⟩⟩
      have hdoc := document_saveUserInfo s.store (fun _ => true) uid info account uid.1
      exact hdoc.trans (if_pos ⟨absent, rfl, rfl⟩)

/-- An update replaces the three texts. -/
theorem HoldsProfile.update {uid : Uid} {time : String} {last : Option (ProfileUpdate D)}
    {s : UserState D} (h : HoldsProfile uid time last s) (u : ProfileUpdate D) :
    HoldsProfile uid time (some u) (run userStep s (u.events uid)) := by
  obtain ⟨d, x, hd, hx, hprofile⟩ := h
  refine ⟨_, _, ?_, stores_userInfo hx u.penName u.introduction u.favoriteSentence,
    ⟨hprofile.userId, hprofile.registrationTime, rfl, rfl, rfl⟩⟩
  have hdoc : s.store.document goodThingUsers uid.1 = some d := hd
  simp [ProfileUpdate.events, profile, userStep, updateUserInfo, filled_of_ne u.penName_ne,
    filled_of_ne u.introduction_ne, filled_of_ne u.favoriteSentence_ne, Store.applyAll_cons,
    Store.apply, Store.document_updateData, hdoc]

theorem holdsProfile_updates {uid : Uid} {time : String} :
    ∀ (updates : List (ProfileUpdate D)) {last : Option (ProfileUpdate D)} {s : UserState D},
      HoldsProfile uid time last s →
        HoldsProfile uid time (updates.getLast?.or last)
          (run userStep s (updates.flatMap (·.events uid))) := by
  intro updates
  induction updates with
  | nil => intro last s h; exact h
  | cons u rest ih =>
      intro last s h
      rw [List.flatMap_cons, run_append]
      have hrest := ih (h.update u)
      rw [List.getLast?_cons]
      cases hlast : rest.getLast? with
      | none => rw [hlast] at hrest; exact hrest
      | some v => rw [hlast] at hrest; exact hrest

/-- The profile decodes to what was registered and updated last. -/
theorem profile_after_updates (before : List (UserEvent D)) (uid : Uid)
    (registration : Registration D) (updates : List (ProfileUpdate D)) :
    ∃ d u, profile (profileHistory before uid registration updates) uid.1 = some d ∧
      GoodThingUser.decode d = some u ∧
      IsProfile uid registration.registrationTime updates.getLast? u := by
  have hregistered := holdsProfile_registration uid registration (run userStep emptyUsers before)
  obtain ⟨d, u, hd, hu, hprofile⟩ := holdsProfile_updates updates hregistered
  rw [Option.or_none] at hprofile
  refine ⟨d, u, ?_, hu.decode, hprofile⟩
  rw [profileHistory, run_append, run_cons]
  exact hd

/-! ### Where it is looked for -/

/-- Nobody writes to `GoodThingUser`. -/
def NoGoodThingUser (s : UserState D) : Prop := s.store.All "GoodThingUser" fun _ => False

theorem noGoodThingUser_step (s : UserState D) (a : UserEvent D) (h : NoGoodThingUser s) :
    NoGoodThingUser (userStep s a) := by
  refine store_all_step (fun w hw => ?_) s a h
  cases hw with
  | registration uid birthday registrationTime => exact fun hpath => absurd hpath (by decide)
  | account uid info => exact fun hpath => absurd hpath (by decide)
  | userInfo uid penName introduction favoriteSentence =>
      exact fun hpath => absurd hpath (by decide)
  | latestTask uid id => exact fun hpath => absurd hpath (by decide)
  | friends u xs => exact fun hpath => absurd hpath (by decide)

omit [DecidableEq D] in
theorem fetchUserInfo_finds_nothing {s : UserState D} (h : NoGoodThingUser s)
    (user : Option GoodThingUser) (reached : Bool) (userInfo : Option GoodThingUser) :
    fetchUserInfo s.store user reached userInfo = userInfo := by
  unfold fetchUserInfo
  by_cases hreached : reached = true
  · rw [if_pos hreached]
    cases hhead : ((fetchUserInfoQuery (user.map (·.userId))).getDocuments
        (s.store "GoodThingUser")).head? with
    | none => rfl
    | some x =>
        obtain ⟨hd, -⟩ := Query.mem_getDocuments (List.mem_of_head? hhead)
        exact (h x.1 x.2 hd).elim
  · rw [if_neg hreached]

/-- `fetchUserInfo` sets `userInfo` to the profile as it was registered and updated last. -/
def ShowsProfile (before : List (UserEvent D)) (uid : Uid) (registration : Registration D)
    (updates : List (ProfileUpdate D)) (user : GoodThingUser) : Prop :=
  ∃ u, fetchUserInfo (profileHistory before uid registration updates).store
      (some { user with userId := uid.1 }) true none = some u ∧
    IsProfile uid registration.registrationTime updates.getLast? u

/-- It never does, whoever registered and whatever was updated. -/
theorem profile_never_shown (before : List (UserEvent D)) (uid : Uid)
    (registration : Registration D) (updates : List (ProfileUpdate D)) (user : GoodThingUser) :
    ¬ ShowsProfile before uid registration updates user := by
  intro h
  obtain ⟨u, hu, -⟩ := h
  have hnone : NoGoodThingUser (profileHistory before uid registration updates) := by
    refine run_invariant noGoodThingUser_step _ _ ?_
    intro id d hd
    cases hd
  rw [fetchUserInfo_finds_nothing hnone] at hu
  cases hu

/-- Aaron registers and his profile is shown to a friend. -/
theorem aarons_profile_not_shown :
    ¬ ShowsProfile ([] : List (UserEvent Unit)) aaron
      (.postUserData () ⟨some "aaron@mail.tw", some "123456", "1990.01.01", "2023.10.14 09:00"⟩
        rfl rfl) []
      ⟨"aaron", "", "1990.01.01", "2023.10.14 09:00", "", "", "", [""], [""], [""], [""], [""],
        [""]⟩ := by
  intro h
  obtain ⟨u, hu, -⟩ := h
  cases hu

/-! ### The task posted last -/

/-- Every write of every post has succeeded, and the profile was updated in their order. -/
def AllPosted (s : LatestTaskState) : Prop :=
  s.storing = ∅ ∧ s.updating = [] ∧ s.updated = s.posts

/-- The profile, and both places the reception screen reads, have the task posted last. -/
def KnowsLatestTask (user : Uid) (s : LatestTaskState) : Prop :=
  ∃ d u, s.store.document goodThingUsers user.1 = some d ∧ GoodThingUser.decode d = some u ∧
    u.latestPublishedTaskId = s.posts.getLast?.getD "" ∧
    s.latestPostedTaskId.getD "" = u.latestPublishedTaskId ∧
    (fetchLatestTaskIDFromFirebase s.store user.1).getD "" = u.latestPublishedTaskId

/-- Ids come from posts; the profile holds the one updated last, and not where it decodes. -/
structure PostsKept (user : Uid) (s : LatestTaskState) : Prop where
  profile : ∃ d x, s.store.document goodThingUsers user.1 = some d ∧ userCodec.Stores x d ∧
    x.latestPublishedTaskId = "" ∧ d.string? "latestPostedTaskId" = s.updated.getLast?
  posts : ∀ id ∈ s.posts, id ≠ ""
  storing : ∀ id ∈ s.storing, id ∈ s.posts
  latestPostedTaskId : ∀ id, s.latestPostedTaskId = some id → id ∈ s.posts

/-- A user has just registered, whatever else is stored. -/
def justRegistered (user : Uid) (s : Store) (birthday registrationTime : String) :
    LatestTaskState :=
  startPosting (s.setData goodThingUsers user.1 (blankProfile user.1 birthday registrationTime))

theorem postsKept_start (user : Uid) (s : Store) (birthday registrationTime : String) :
    PostsKept user (justRegistered user s birthday registrationTime) where
  profile := by
    refine ⟨blankProfile user.1 birthday registrationTime,
      ⟨user.1, "", birthday, registrationTime, "", "", "", [""], [""], [""], [""], [""], [""]⟩, ?_,
      fun _ _ => rfl, rfl, rfl⟩
    exact (Store.document_setData _ _ _ _ _ _).trans (if_pos ⟨rfl, rfl⟩)
  posts := fun _ h => (nomatch h)
  storing := fun id h => absurd h (AList.notMem_empty id)
  latestPostedTaskId := fun _ h => (nomatch h)

/-- The profile once an update has completed. -/
theorem PostsKept.profile_updated {user : Uid} {s : LatestTaskState} (h : PostsKept user s)
    (id : String) :
    ∃ d x, (s.store.apply (latestPostedTask user id)).document goodThingUsers user.1 = some d ∧
      userCodec.Stores x d ∧ x.latestPublishedTaskId = "" ∧
      d.string? "latestPostedTaskId" = some id := by
  obtain ⟨d, x, hd, hx, hpublished, -⟩ := h.profile
  refine ⟨d.update [("latestPostedTaskId", .string id)], x, ?_, stores_latestPostedTask hx id,
    hpublished, rfl⟩
  show (s.store.updateData goodThingUsers user.1 _).document goodThingUsers user.1 = _
  rw [Store.document_updateData, if_pos ⟨rfl, rfl⟩, hd]
  rfl

theorem postsKept_step (user : Uid) (s : LatestTaskState) (a : LatestTaskAction)
    (h : PostsKept user s) : PostsKept user (latestTaskStep user s a) := by
  cases a with
  | postTask form date randomValue id =>
      simp only [latestTaskStep]
      by_cases hid : id = "" ∨ id ∈ s.posts
      · rw [if_pos hid]
        exact h
      · rw [if_neg hid]
        split
        · refine ⟨h.profile, ?_, ?_, ?_⟩
          · intro id' hid'
            rcases List.mem_append.mp hid' with hold | hnew
            · exact h.posts id' hold
            · rw [List.mem_singleton.mp hnew]
              exact fun hempty => hid (.inl hempty)
          · intro id' hid'
            rcases (AList.mem_insert _).mp hid' with hnew | hold
            · rw [hnew]
              exact List.mem_append_right _ (List.mem_singleton_self id)
            · exact List.mem_append_left _ (h.storing id' hold)
          · intro id' hid'
            exact List.mem_append_left _ (h.latestPostedTaskId id' hid')
        · exact h
  | setDataCompletes id =>
      simp only [latestTaskStep]
      split
      · rename_i d hd
        refine ⟨?_, h.posts, ?_, ?_⟩
        · obtain ⟨dp, x, hdp, hrest⟩ := h.profile
          refine ⟨dp, x, ?_, hrest⟩
          rw [Store.document_setData, if_neg fun heq => absurd heq.1 (by decide)]
          exact hdp
        · intro id' hid'
          exact h.storing id' (AList.mem_erase.mp hid').2
        · intro id' hid'
          rw [← Option.some.inj hid']
          exact h.storing id (AList.lookup_isSome.mp (by rw [hd]; rfl))
      · exact h
  | updateDataCompletes id =>
      simp only [latestTaskStep]
      by_cases hid : id ∈ s.updating
      · rw [if_pos hid]
        refine ⟨?_, h.posts, h.storing, h.latestPostedTaskId⟩
        obtain ⟨d, x, hd, hx, hpublished, hlatest⟩ := h.profile_updated id
        refine ⟨d, x, hd, hx, hpublished, ?_⟩
        rw [hlatest, List.getLast?_append, List.getLast?_singleton]
        rfl
      · rw [if_neg hid]
        exact h

/--
Once all its writes have succeeded, a user's profile knows the task posted last exactly
when the user has posted none.
-/
theorem latest_task_known_iff (user : Uid) (s : Store) (birthday registrationTime : String)
    (as : List LatestTaskAction)
    (hdone : AllPosted
      (run (latestTaskStep user) (justRegistered user s birthday registrationTime) as)) :
    KnowsLatestTask user
      (run (latestTaskStep user) (justRegistered user s birthday registrationTime) as) ↔
    (run (latestTaskStep user) (justRegistered user s birthday registrationTime) as).posts
      = [] := by
  have hkept := run_invariant (postsKept_step user) as _
    (postsKept_start user s birthday registrationTime)
  generalize run (latestTaskStep user) _ as = t at hdone hkept ⊢
  obtain ⟨d, x, hd, hx, hpublished, hlatest⟩ := hkept.profile
  refine ⟨fun h => ?_, fun hnone => ⟨d, x, hd, hx.decode, ?_, ?_, ?_⟩⟩
  · obtain ⟨d', u, hd', hu, hlast, -⟩ := h
    obtain rfl : d = d' := Option.some.inj (hd.symm.trans hd')
    obtain rfl : x = u := Option.some.inj (hx.decode.symm.trans hu)
    -- What the profile decodes to has no task, so there is none.
    rw [hpublished] at hlast
    cases hpost : t.posts.getLast? with
    | none => exact List.getLast?_eq_none_iff.mp hpost
    | some id =>
        rw [hpost] at hlast
        exact absurd hlast.symm (hkept.posts id (List.mem_of_getLast? hpost))
  · rw [hpublished, hnone]
    rfl
  · rw [hpublished]
    cases hdefaults : t.latestPostedTaskId with
    | none => rfl
    | some id =>
        have hmem := hkept.latestPostedTaskId id hdefaults
        rw [hnone] at hmem
        cases hmem
  · rw [hpublished, fetchLatestTaskIDFromFirebase, hd]
    simp only [Option.bind_some]
    rw [hlatest, hdone.2.2, hnone]
    rfl

/-- Aaron has registered; his profile is right until he posts a task. -/
theorem latest_task_known_iff_aaron :
    KnowsLatestTask aaron
      (run (latestTaskStep aaron) (justRegistered aaron (fun _ => ∅) "" "2023.10.14 09:00") []) ∧
    ¬ KnowsLatestTask aaron (run (latestTaskStep aaron)
      (justRegistered aaron (fun _ => ∅) "" "2023.10.14 09:00")
      [.postTask greeting "2023.10.14" (1 / 2) "t1", .setDataCompletes "t1",
        .updateDataCompletes "t1"]) := by
  refine ⟨(latest_task_known_iff aaron (fun _ => ∅) "" "2023.10.14 09:00" []
    ⟨rfl, rfl, rfl⟩).mpr rfl, ?_⟩
  intro h
  have hnone := (latest_task_known_iff aaron (fun _ => ∅) "" "2023.10.14 09:00"
    [.postTask greeting "2023.10.14" (1 / 2) "t1", .setDataCompletes "t1",
      .updateDataCompletes "t1"] ⟨rfl, rfl, rfl⟩).mp h
  cases hnone

/-- He posts a task and everything succeeds; his profile decodes without it. -/
theorem posted_task_unknown :
    AllPosted (run (latestTaskStep aaron)
      (justRegistered aaron (fun _ => ∅) "" "2023.10.14 09:00")
      [.postTask greeting "2023.10.14" (1 / 2) "t1", .setDataCompletes "t1",
        .updateDataCompletes "t1"]) ∧
    ¬ KnowsLatestTask aaron (run (latestTaskStep aaron)
      (justRegistered aaron (fun _ => ∅) "" "2023.10.14 09:00")
      [.postTask greeting "2023.10.14" (1 / 2) "t1", .setDataCompletes "t1",
        .updateDataCompletes "t1"]) := by
  refine ⟨⟨rfl, rfl, rfl⟩, ?_⟩
  intro h
  obtain ⟨d, u, hd, hu, hlast, -⟩ := h
  cases hd
  cases hu
  exact absurd hlast (by decide)

end GoodThing
