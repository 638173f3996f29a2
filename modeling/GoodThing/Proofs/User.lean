/-
What registering, signing in and making friends do to a profile.

`friendsField_step` says once what any event can do to the lists of friends: leave
them alone, start one with the empty string, or append two users to each other's.
Everything about friends rests on it.

Two of the results are about what goes wrong.  A sign-in that does not find the
account writes a blank profile over the old one, and the empty string every list
starts with is passed to `document(_:)` as soon as the list is opened.
-/
import GoodThing.Controller.User

namespace GoodThing

open Firestore Machine

variable {D : Type}

/-! ### The writes one by one -/

theorem goodThingUsers_ne_userAccountInfo : goodThingUsers ≠ userAccountInfo := by decide

/-- What `postUserData` writes: nothing, unless both fields are filled and somebody is signed in. -/
theorem postUserData_cases (form : SingupForm) (currentUser : Option Uid) :
    (∃ uid : Uid, currentUser = some uid ∧ (filled form.email).isSome = true ∧
      (filled form.password).isSome = true ∧ postUserData form currentUser =
        some (.setData goodThingUsers uid.1
          (blankProfile uid.1 form.birthday form.registrationTime))) ∨
    (¬ ((filled form.email).isSome = true ∧ (filled form.password).isSome = true ∧
      currentUser.isSome = true) ∧ postUserData form currentUser = none) := by
  unfold postUserData
  cases filled form.email with
  | none => exact Or.inr ⟨fun h => (nomatch h.1), rfl⟩
  | some email =>
      cases filled form.password with
      | none => exact Or.inr ⟨fun h => (nomatch h.2.1), rfl⟩
      | some password =>
          cases currentUser with
          | none => exact Or.inr ⟨fun h => (nomatch h.2.2), rfl⟩
          | some uid => exact Or.inl ⟨uid, rfl, rfl, rfl, rfl⟩

/-- The write of `postUserData` is a blank profile. -/
theorem postUserData_eq {form : SingupForm} {currentUser : Option Uid} {w : Write}
    (h : postUserData form currentUser = some w) :
    ∃ uid : Uid, w = .setData goodThingUsers uid.1
      (blankProfile uid.1 form.birthday form.registrationTime) := by
  rcases postUserData_cases form currentUser with ⟨uid, -, -, -, hw⟩ | ⟨-, hnone⟩
  · exact ⟨uid, Option.some.inj (h.symm.trans hw)⟩
  · rw [hnone] at h
    cases h

/-- The write of `updateUserInfo` is of three texts. -/
theorem updateUserInfo_eq {form : UserInfoForm} {userId : Option Uid} {w : Write}
    (h : updateUserInfo form userId = some w) :
    ∃ uid penName introduction favoriteSentence : String,
      w = .updateData goodThingUsers uid [("userName", .string penName),
        ("introduction", .string introduction),
        ("favoriteSentence", .string favoriteSentence)] := by
  simp only [updateUserInfo, Option.bind_eq_bind, Option.bind_eq_some_iff] at h
  obtain ⟨penName, -, introduction, -, favoriteSentence, -, uid, -, hw⟩ := h
  exact ⟨uid.1, penName, introduction, favoriteSentence, (Option.some.inj hw).symm⟩

/-- The profile once the account read of a sign-in has come back. -/
theorem document_saveUserInfo (s : Store) (accepted : Write → Bool) (userId : Uid)
    (info : AppleInfo) (account : Snapshot) (u : String) :
    (s.applyAll accepted (saveUserInfoToFirestore userId info account)).document goodThingUsers u =
      if account.isFound = false ∧ accepted (profileWrite userId info) = true ∧ u = userId.1 then
        some (blankProfile userId.1 "" info.registrationTime)
      else s.document goodThingUsers u := by
  have hne : ∀ d : Document,
      (Write.setData userAccountInfo userId.1 d).target ≠ (goodThingUsers, u) := by
    intro d heq
    exact goodThingUsers_ne_userAccountInfo (congrArg Prod.fst heq).symm
  have key : (s.applyAll accepted
        [.setData userAccountInfo userId.1 (accountData userId info),
          profileWrite userId info]).document goodThingUsers u =
      if accepted (profileWrite userId info) = true ∧ u = userId.1 then
        some (blankProfile userId.1 "" info.registrationTime)
      else s.document goodThingUsers u := by
    rw [Store.applyAll_cons, Store.applyAll_cons]
    have hfirst : ∀ b : Bool, (if b = true
          then s.apply (.setData userAccountInfo userId.1 (accountData userId info))
          else s).document goodThingUsers u = s.document goodThingUsers u := by
      intro b
      by_cases hb : b = true
      · rw [if_pos hb, Store.document_apply_of_ne (hne _)]
      · rw [if_neg hb]
    by_cases hacc : accepted (profileWrite userId info) = true
    · rw [if_pos hacc]
      show (Store.setData _ goodThingUsers userId.1 _).document goodThingUsers u = _
      rw [Store.document_setData, hfirst]
      simp [hacc]
    · rw [if_neg hacc]
      rw [Store.applyAll_nil, hfirst, if_neg fun h => hacc h.1]
  unfold saveUserInfoToFirestore
  by_cases hfound : account.isFound = true
  · rw [if_pos hfound, if_neg fun h => by simp [hfound] at h]
    rfl
  · rw [if_neg hfound, key]
    simp [hfound]

/-- An update that leaves the friends out leaves them alone. -/
theorem strings?_update {d : Document} {fields : List (String × Value)}
    (h : "friends" ∉ fields.map (·.1)) :
    (d.update fields).strings? "friends" = d.strings? "friends" := by
  unfold Document.strings?
  rw [Document.update_of_notMem h]

/-! ### What an event can do to the lists of friends -/

/-- Whether there is a profile, and the friends it lists. -/
def friendsField (s : UserState D) (u : String) : Option (Option (List String)) :=
  (profile s u).map (·.strings? "friends")

theorem friends_of_field {s : UserState D} {u : String} {xs : List String}
    (h : friendsField s u = some (some xs)) : friends s u = xs := by
  obtain ⟨d, hd, hxs⟩ := Option.map_eq_some_iff.mp h
  simp [friends, hd, hxs]

theorem profile_eq_none_iff {s : UserState D} {u : String} :
    profile s u = none ↔ friendsField s u = none := by
  unfold friendsField
  rw [Option.map_eq_none_iff]

/-- A write that updates other fields than the friends. -/
theorem document_update_friends {s : Store} {accepted : Write → Bool} {v : String}
    {fields : List (String × Value)} (h : "friends" ∉ fields.map (·.1)) (u : String) :
    ((s.applyAll accepted [.updateData goodThingUsers v fields]).document goodThingUsers u).map
        (·.strings? "friends") =
      (s.document goodThingUsers u).map (·.strings? "friends") := by
  rw [Store.applyAll_cons]
  by_cases hacc : accepted (.updateData goodThingUsers v fields) = true
  · rw [if_pos hacc]
    show ((s.updateData goodThingUsers v fields).document goodThingUsers u).map _ = _
    rw [Store.document_updateData]
    by_cases hu : u = v
    · rw [if_pos ⟨rfl, hu⟩, hu, Option.map_map]
      congr 1
      funext d
      exact strings?_update h
    · rw [if_neg fun hc => hu hc.2]
  · rw [if_neg hacc]
    rfl

/-- The two updates of an `addFriend` that goes through. -/
def befriended (s : Store) (p c : String) (xs ys : List String) : Store :=
  (s.updateData goodThingUsers p [("friends", .strings (addOnce c xs))]).updateData
    goodThingUsers c [("friends", .strings (addOnce p ys))]

theorem addFriendUpdates_cases (p c : String) (taskPoster completer : Snapshot) :
    (∀ updates, addFriendUpdates p c taskPoster completer = some updates → updates = []) ∨
    ∃ xs ys, Snapshot.friends? taskPoster = some xs ∧ Snapshot.friends? completer = some ys ∧
      addFriendUpdates p c taskPoster completer = some [
        .updateData goodThingUsers p [("friends", .strings (addOnce c xs))],
        .updateData goodThingUsers c [("friends", .strings (addOnce p ys))]] := by
  cases hp : Snapshot.friends? taskPoster with
  | none =>
      left
      intro updates h
      cases taskPoster <;> cases completer <;> simp_all [addFriendUpdates]
  | some xs =>
      cases hc : Snapshot.friends? completer with
      | none =>
          left
          intro updates h
          cases taskPoster <;> cases completer <;> simp_all [addFriendUpdates]
      | some ys =>
          right
          refine ⟨xs, ys, rfl, rfl, ?_⟩
          cases taskPoster with
          | found d =>
              cases completer with
              | found d' => simp [addFriendUpdates, hp, hc]
              | _ => simp [Snapshot.friends?] at hc
          | _ => simp [Snapshot.friends?] at hp

/-- A list of friends comes from a read that got through to a profile that has one. -/
theorem friends?_getDocument {s : Store} {u : String} {reached : Bool} {xs : List String} :
    Snapshot.friends? (s.getDocument goodThingUsers u reached) = some xs ↔
      reached = true ∧ ∃ d, s.document goodThingUsers u = some d ∧
        d.strings? "friends" = some xs := by
  unfold Store.getDocument
  by_cases hr : reached = true
  · rw [if_pos hr]
    cases hd : s.document goodThingUsers u with
    | none => simp [Snapshot.friends?]
    | some d => simp [Snapshot.friends?, hr]
  · rw [if_neg hr]
    simp [Snapshot.friends?, hr]

/-- `addFriend` changes nothing, or makes its two users friends. -/
theorem addFriend_cases {s s' : Store} {p c : String} {reached : String → Bool}
    {commits ok : Bool} (h : addFriend s p c reached commits = .ok (s', ok)) :
    s' = s ∨ ∃ dp dc xs ys, (reached p = true ∧ reached c = true ∧ commits = true) ∧
      s.document goodThingUsers p = some dp ∧ dp.strings? "friends" = some xs ∧
      s.document goodThingUsers c = some dc ∧ dc.strings? "friends" = some ys ∧
      s' = befriended s p c xs ys := by
  by_cases hp : p = ""
  · simp [addFriend, documentRef, hp, bind, Except.bind] at h
  by_cases hc : c = ""
  · simp [addFriend, documentRef, hp, hc, bind, Except.bind] at h
  rw [addFriend, documentRef_of_ne hp, documentRef_of_ne hc] at h
  simp only [bind, Except.bind, pure, Except.pure] at h
  split at h
  · left
    exact (congrArg Prod.fst (Except.ok.inj h)).symm
  · rename_i updates hupdates
    by_cases hcommits : commits = true
    · rw [if_pos hcommits] at h
      obtain rfl := congrArg Prod.fst (Except.ok.inj h)
      rcases addFriendUpdates_cases p c _ _ with hnone | ⟨xs, ys, hxs, hys, heq⟩
      · left
        rw [hnone updates hupdates]
        rfl
      · right
        obtain ⟨hreachedp, dp, hdp, hxs'⟩ := friends?_getDocument.mp hxs
        obtain ⟨hreachedc, dc, hdc, hys'⟩ := friends?_getDocument.mp hys
        refine ⟨dp, dc, xs, ys, ⟨hreachedp, hreachedc, hcommits⟩, hdp, hxs', hdc, hys', ?_⟩
        rw [heq] at hupdates
        rw [← Option.some.inj hupdates]
        rfl
    · rw [if_neg hcommits] at h
      left
      exact (congrArg Prod.fst (Except.ok.inj h)).symm

/-- A transaction whose reads get through to two lists, and which commits, changes both. -/
theorem addFriend_goes_through {s : Store} {p c : String} {dp dc : Document} {xs ys : List String}
    (hpne : p ≠ "") (hcne : c ≠ "") {reached : String → Bool}
    (hp : s.document goodThingUsers p = some dp) (hxs : dp.strings? "friends" = some xs)
    (hc : s.document goodThingUsers c = some dc) (hys : dc.strings? "friends" = some ys)
    (hreachedp : reached p = true) (hreachedc : reached c = true) :
    addFriend s p c reached true = .ok (befriended s p c xs ys, true) := by
  rw [addFriend, documentRef_of_ne hpne, documentRef_of_ne hcne]
  simp only [bind, Except.bind, Store.getDocument, hreachedp, hreachedc, hp, hc, if_true,
    addFriendUpdates, Snapshot.friends?, hxs, hys]
  rfl

/-- Two reads that get through, but not to two lists, lead to no update. -/
theorem addFriendUpdates_of_lacking (p c : String) {taskPoster completer : Snapshot}
    (htaskPoster : taskPoster ≠ .failed) (hcompleter : completer ≠ .failed)
    (h : Snapshot.friends? taskPoster = none ∨ Snapshot.friends? completer = none) :
    addFriendUpdates p c taskPoster completer = some [] := by
  cases taskPoster with
  | failed => exact absurd rfl htaskPoster
  | missing => cases completer <;> simp_all [addFriendUpdates, Snapshot.friends?]
  | found d =>
      cases completer with
      | failed => exact absurd rfl hcompleter
      | missing => simp [addFriendUpdates, Snapshot.friends?]
      | found d' =>
          unfold addFriendUpdates
          rcases h with hnone | hnone
          · simp only [hnone]
          · simp only [hnone]
            split <;> simp_all

/-- The profile is there and has a list of friends. -/
def HasFriendsList (s : Store) (u : String) : Prop :=
  ∃ d xs, s.document goodThingUsers u = some d ∧ d.strings? "friends" = some xs

/-- A transaction that finds no two lists changes nothing, and is reported as committed. -/
theorem addFriend_idle {s : Store} {p c : String} (hp : p ≠ "") (hc : c ≠ "")
    {reached : String → Bool} (hreachedp : reached p = true) (hreachedc : reached c = true)
    (h : ¬ (HasFriendsList s p ∧ HasFriendsList s c)) :
    addFriend s p c reached true = .ok (s, true) := by
  have hlist : ∀ u, ¬ HasFriendsList s u →
      Snapshot.friends? (s.getDocument goodThingUsers u true) = none := by
    intro u hu
    refine Option.eq_none_iff_forall_ne_some.mpr fun xs hxs => hu ?_
    obtain ⟨-, d, hd, hfriends⟩ := friends?_getDocument.mp hxs
    exact ⟨d, xs, hd, hfriends⟩
  have hread : ∀ u, s.getDocument goodThingUsers u true ≠ .failed := by
    intro u
    unfold Store.getDocument
    cases s.document goodThingUsers u <;> simp
  have hlacking : Snapshot.friends? (s.getDocument goodThingUsers p true) = none ∨
      Snapshot.friends? (s.getDocument goodThingUsers c true) = none :=
    (not_and_or.mp h).imp (hlist p) (hlist c)
  rw [addFriend, documentRef_of_ne hp, documentRef_of_ne hc]
  simp only [bind, Except.bind, hreachedp, hreachedc,
    addFriendUpdates_of_lacking p c (hread p) (hread c) hlacking]
  rfl

/-- The writes that events ask for. -/
inductive ProfileWrite : Write → Prop where
  | registration (uid birthday registrationTime : String) :
      ProfileWrite (.setData goodThingUsers uid (blankProfile uid birthday registrationTime))
  | account (uid : Uid) (info : AppleInfo) :
      ProfileWrite (.setData userAccountInfo uid.1 (accountData uid info))
  | userInfo (uid penName introduction favoriteSentence : String) :
      ProfileWrite (.updateData goodThingUsers uid [("userName", .string penName),
        ("introduction", .string introduction), ("favoriteSentence", .string favoriteSentence)])
  | latestTask (uid : Uid) (id : String) : ProfileWrite (latestPostedTask uid id)
  | friends (u : String) (xs : List String) :
      ProfileWrite (.updateData goodThingUsers u [("friends", .strings xs)])

/-- What those writes keep of a collection, every event keeps. -/
theorem store_all_step [DecidableEq D] {path : String} {P : Document → Prop}
    (hkeeps : ∀ w, ProfileWrite w → w.Keeps path P) (s : UserState D) (a : UserEvent D)
    (h : s.store.All path P) : (userStep s a).store.All path P := by
  cases a with
  | rigister device user form currentUser accepted =>
      refine Store.All.applyAll accepted _ (fun w hw => hkeeps w ?_) h
      obtain ⟨uid, rfl⟩ := postUserData_eq (Option.mem_toList.mp hw)
      exact .registration uid.1 form.birthday form.registrationTime
  | signIn device user => exact h
  | saveUserInfo userId info account accepted =>
      refine Store.All.applyAll accepted _ (fun w hw => hkeeps w ?_) h
      unfold saveUserInfoToFirestore at hw
      split at hw
      · cases hw
      · rcases List.mem_pair.mp hw with rfl | rfl
        · exact .account userId info
        · exact .registration userId.1 "" info.registrationTime
  | updateUserInfo device form accepted =>
      refine Store.All.applyAll accepted _ (fun w hw => hkeeps w ?_) h
      obtain ⟨uid, penName, introduction, favoriteSentence, rfl⟩ :=
        updateUserInfo_eq (Option.mem_toList.mp hw)
      exact .userInfo uid penName introduction favoriteSentence
  | taskPosted userId id accepted =>
      refine Store.All.applyAll accepted _ (fun w hw => hkeeps w ?_) h
      rw [List.mem_singleton.mp hw]
      exact .latestTask userId id
  | addFriend p c reached commits =>
      simp only [userStep]
      split
      · rename_i store _ hok
        rcases addFriend_cases hok with rfl | ⟨_, _, xs, ys, -, -, -, -, -, rfl⟩
        · exact h
        · exact Store.All.apply (h.apply (hkeeps _ (.friends p (addOnce c xs))))
            (hkeeps _ (.friends c (addOnce p ys)))
      · exact h

/-- The lists after two users have become friends. -/
theorem document_befriended {s : Store} {p c : String} {dp dc : Document} {xs ys : List String}
    (hp : s.document goodThingUsers p = some dp) (hxs : dp.strings? "friends" = some xs)
    (hc : s.document goodThingUsers c = some dc) (hys : dc.strings? "friends" = some ys)
    (u : String) :
    ((befriended s p c xs ys).document goodThingUsers u).map (·.strings? "friends") =
      if u = p then some (some (addOnce c xs))
      else if u = c then some (some (addOnce p ys))
      else (s.document goodThingUsers u).map (·.strings? "friends") := by
  have hread : ∀ (d : Document) (zs : List String),
      (d.update [("friends", .strings zs)]).strings? "friends" = some zs := fun _ _ => rfl
  unfold befriended
  rw [Store.document_updateData, Store.document_updateData, Store.document_updateData]
  by_cases hpc : c = p
  · -- One document is updated twice, with the same list.
    obtain rfl := hpc
    obtain rfl : dp = dc := Option.some.inj (hp.symm.trans hc)
    obtain rfl : xs = ys := Option.some.inj (hxs.symm.trans hys)
    by_cases hu : u = c
    · simp [hu, hp, hread]
    · simp [hu]
  · by_cases hu : u = p
    · have huc : u ≠ c := fun h => hpc (h.symm.trans hu)
      rw [if_neg fun h => huc h.2, if_pos ⟨rfl, hu⟩, if_pos hu, hp]
      exact congrArg some (hread dp _)
    · by_cases huc : u = c
      · rw [if_pos ⟨rfl, huc⟩, if_neg fun h => hpc h.2, if_neg hu, if_pos huc, hc]
        exact congrArg some (hread dc _)
      · rw [if_neg fun h => huc h.2, if_neg fun h => hu h.2, if_neg hu, if_neg huc]

/-- The writes a registration asks for. -/
def registration : UserEvent D → List Write
  | .rigister _ _ form currentUser _ => (postUserData form currentUser).toList
  | .saveUserInfo userId info account _ => saveUserInfoToFirestore userId info account
  | _ => []

/-- All that can happen to the lists of friends while `asked` are the registrations. -/
inductive FriendsChange (asked : List Write) (s s' : UserState D) : Prop where
  | same (h : ∀ u, friendsField s' u = friendsField s u)
  /-- A list is started with the empty string. -/
  | registered (v : String) (d : Document) (hasked : Write.setData goodThingUsers v d ∈ asked)
      (h : ∀ u, friendsField s' u = if u = v then some (some [""]) else friendsField s u)
  /-- Two lists grow by each other's owner. -/
  | befriended (p c : String) (xs ys : List String)
      (hp : friendsField s p = some (some xs)) (hc : friendsField s c = some (some ys))
      (h : ∀ u, friendsField s' u =
        if u = p then some (some (addOnce c xs))
        else if u = c then some (some (addOnce p ys))
        else friendsField s u)

theorem friends_blankProfile (uid birthday registrationTime : String) :
    (blankProfile uid birthday registrationTime).strings? "friends" = some [""] := rfl

/-- A blank profile starts a list of friends. -/
theorem friendsField_blank {s s' : UserState D} {v birthday time : String}
    (h : ∀ u, profile s' u = if u = v then some (blankProfile v birthday time) else profile s u)
    (u : String) :
    friendsField s' u = if u = v then some (some [""]) else friendsField s u := by
  unfold friendsField
  rw [h]
  by_cases hu : u = v
  · rw [if_pos hu, if_pos hu, Option.map_some, friends_blankProfile]
  · rw [if_neg hu, if_neg hu]

variable [DecidableEq D]

/-- The lists of friends are left alone, or one is started by a registration. -/
def FriendsStarted (asked : List Write) (s s' : UserState D) : Prop :=
  (∀ u, friendsField s' u = friendsField s u) ∨
    ∃ v d, Write.setData goodThingUsers v d ∈ asked ∧
      ∀ u, friendsField s' u = if u = v then some (some [""]) else friendsField s u

theorem friendsStarted_rigister (s : UserState D) (device : D) (user : Uid) (form : SingupForm)
    (currentUser : Option Uid) (accepted : Write → Bool) :
    FriendsStarted (postUserData form currentUser).toList s
      (userStep s (.rigister device user form currentUser accepted)) := by
  cases hw : postUserData form currentUser with
  | none =>
      refine Or.inl fun u => ?_
      simp [friendsField, profile, userStep, hw]
  | some w =>
      obtain ⟨uid, rfl⟩ := postUserData_eq hw
      by_cases hacc : accepted (.setData goodThingUsers uid.1
          (blankProfile uid.1 form.birthday form.registrationTime)) = true
      · have hprofile : ∀ u,
            profile (userStep s (.rigister device user form currentUser accepted)) u =
              if u = uid.1 then
                some (blankProfile uid.1 form.birthday form.registrationTime)
              else profile s u := by
          intro u
          simp only [profile, userStep, hw, Option.toList_some, Store.applyAll_cons, hacc, if_true,
            Store.applyAll_nil, Store.apply, Store.document_setData, true_and]
        exact Or.inr ⟨uid.1, _, List.mem_singleton_self _, friendsField_blank hprofile⟩
      · refine Or.inl fun u => ?_
        simp [friendsField, profile, userStep, hw, Store.applyAll_cons, hacc]

theorem friendsStarted_saveUserInfo (s : UserState D) (userId : Uid) (info : AppleInfo)
    (account : Snapshot) (accepted : Write → Bool) :
    FriendsStarted (saveUserInfoToFirestore userId info account) s
      (userStep s (.saveUserInfo userId info account accepted)) := by
  by_cases hwrites : account.isFound = false ∧ accepted (profileWrite userId info) = true
  · have hprofile : ∀ u, profile (userStep s (.saveUserInfo userId info account accepted)) u =
        if u = userId.1 then some (blankProfile userId.1 "" info.registrationTime)
        else profile s u := by
      intro u
      simp only [profile, userStep, document_saveUserInfo, hwrites.1, hwrites.2, true_and]
    refine Or.inr ⟨userId.1, blankProfile userId.1 "" info.registrationTime, ?_,
      friendsField_blank hprofile⟩
    simp only [saveUserInfoToFirestore, hwrites.1]
    exact List.mem_cons_of_mem _ (List.mem_singleton_self (profileWrite userId info))
  · refine Or.inl fun u => ?_
    simp only [friendsField, profile, userStep, document_saveUserInfo]
    rw [if_neg fun h => hwrites ⟨h.1, h.2.1⟩]

/-- Whatever is not an `addFriend` appends nobody to a list. -/
theorem friendsStarted_step (s : UserState D) (a : UserEvent D)
    (ha : ∀ p c reached commits, a ≠ .addFriend p c reached commits) :
    FriendsStarted (registration a) s (userStep s a) := by
  cases a with
  | rigister device user form currentUser accepted =>
      exact friendsStarted_rigister s device user form currentUser accepted
  | signIn device user => exact Or.inl fun u => rfl
  | saveUserInfo userId info account accepted =>
      exact friendsStarted_saveUserInfo s userId info account accepted
  | updateUserInfo device form accepted =>
      refine Or.inl fun u => ?_
      cases hw : updateUserInfo form (s.userId device) with
      | none => simp [friendsField, profile, userStep, hw]
      | some w =>
          obtain ⟨uid, penName, introduction, favoriteSentence, rfl⟩ := updateUserInfo_eq hw
          simp only [friendsField, profile, userStep, hw, Option.toList_some]
          exact document_update_friends (by simp) u
  | taskPosted userId id accepted =>
      exact Or.inl fun u => document_update_friends (by simp) u
  | addFriend p c reached commits => exact absurd rfl (ha p c reached commits)

/-- `addFriend` leaves the lists of friends alone, or makes its two users friends. -/
theorem friendsField_addFriend (s : UserState D) (p c : String) (reached : String → Bool)
    (commits : Bool) :
    (∀ u, friendsField (userStep s (.addFriend p c reached commits)) u = friendsField s u) ∨
    ∃ xs ys, (reached p = true ∧ reached c = true ∧ commits = true) ∧
      friendsField s p = some (some xs) ∧ friendsField s c = some (some ys) ∧
      ∀ u, friendsField (userStep s (.addFriend p c reached commits)) u =
        if u = p then some (some (addOnce c xs))
        else if u = c then some (some (addOnce p ys))
        else friendsField s u := by
  cases h : addFriend s.store p c reached commits with
  | error e =>
      refine Or.inl fun u => ?_
      simp [friendsField, profile, userStep, h]
  | ok r =>
      obtain ⟨s', ok⟩ := r
      have hstep : ∀ u, friendsField (userStep s (.addFriend p c reached commits)) u =
          (s'.document goodThingUsers u).map (·.strings? "friends") := by
        intro u
        simp [friendsField, profile, userStep, h]
      rcases addFriend_cases h with rfl | ⟨dp, dc, xs, ys, hthrough, hdp, hxs, hdc, hys, rfl⟩
      · exact Or.inl hstep
      · refine Or.inr ⟨xs, ys, hthrough, ?_, ?_, fun u => ?_⟩
        · simp [friendsField, profile, hdp, hxs]
        · simp [friendsField, profile, hdc, hys]
        · rw [hstep, document_befriended hdp hxs hdc hys]
          rfl

/-- Every event changes the lists of friends in one of three ways. -/
theorem friendsField_step (s : UserState D) (a : UserEvent D) :
    FriendsChange (registration a) s (userStep s a) := by
  by_cases ha : ∃ p c reached commits, a = .addFriend p c reached commits
  · obtain ⟨p, c, reached, commits, rfl⟩ := ha
    rcases friendsField_addFriend s p c reached commits with hsame | ⟨xs, ys, -, hp, hc, hadded⟩
    · exact .same hsame
    · exact .befriended p c xs ys hp hc hadded
  · have hquiet : ∀ p c reached commits, a ≠ .addFriend p c reached commits :=
      fun p c reached commits heq => ha ⟨p, c, reached, commits, heq⟩
    rcases friendsStarted_step s a hquiet with hsame | ⟨v, d, hasked, hstarted⟩
    · exact .same hsame
    · exact .registered v d hasked hstarted

/-! ### Signing in can destroy a profile -/

/-- A sign-in of a user who has a profile leaves every field of it as it is. -/
def SignInKeepsProfile (s : UserState D) (a : UserEvent D) : Prop :=
  ∀ userId info account accepted, a = .saveUserInfo userId info account accepted →
    ∀ d, profile s userId.1 = some d → profile (userStep s a) userId.1 = some d

/--
A sign-in of a user who has a profile finds the account, or its profile write is
refused, or the profile is the blank one of this very minute.
-/
def SignInFindsAccount (s : UserState D) (a : UserEvent D) : Prop :=
  ∀ userId info account accepted, a = .saveUserInfo userId info account accepted →
    ∀ d, profile s userId.1 = some d →
      account.isFound = true ∨ accepted (profileWrite userId info) = false ∨
        d = blankProfile userId.1 "" info.registrationTime

theorem signInKeepsProfile_iff (s : UserState D) (a : UserEvent D) :
    SignInKeepsProfile s a ↔ SignInFindsAccount s a := by
  have key : ∀ (userId : Uid) info account accepted d, profile s userId.1 = some d →
      (profile (userStep s (.saveUserInfo userId info account accepted)) userId.1 = some d ↔
        account.isFound = true ∨ accepted (profileWrite userId info) = false ∨
          d = blankProfile userId.1 "" info.registrationTime) := by
    intro userId info account accepted d hd
    have hdoc := document_saveUserInfo s.store accepted userId info account userId.1
    unfold profile at hd ⊢
    simp only [userStep]
    rw [hdoc, hd]
    by_cases hfound : account.isFound = true
    · simp [hfound]
    · by_cases hacc : accepted (profileWrite userId info) = true
      · simp [hfound, hacc, eq_comm]
      · simp [hacc]
  refine ⟨?_, ?_⟩
  · intro h userId info account accepted ha d hd
    have hkept := h userId info account accepted ha d hd
    rw [ha] at hkept
    exact (key userId info account accepted d hd).mp hkept
  · intro h userId info account accepted ha d hd
    rw [ha]
    exact (key userId info account accepted d hd).mpr (h userId info account accepted ha d hd)

/--
In a run, no sign-in changes a profile exactly when each one of a user who has a
profile finds the account, or writes nothing new.
-/
theorem sign_in_keeps_profile_iff (s : UserState D) (as : List (UserEvent D)) :
    Guarded userStep SignInKeepsProfile s as ↔ Guarded userStep SignInFindsAccount s as :=
  guarded_congr signInKeepsProfile_iff

def aaron : Uid := ⟨"aaron", by decide⟩

/-- Aaron signs in with Apple for the first time and fills in his profile. -/
def aaronArrives : List (UserEvent Unit) := [
  .signIn () aaron,
  .saveUserInfo aaron ⟨"apple", "Aaron", "", "2023.10.14 09:00"⟩ .missing fun _ => true,
  .updateUserInfo () ⟨some "蔡", some "你好", some "日行一善"⟩ fun _ => true]

/-- His next sign-in, during which the account cannot be read. -/
def aaronReturns : UserEvent Unit :=
  .saveUserInfo aaron ⟨"apple", "", "", "2023.10.15 09:00"⟩ .failed fun _ => true

/-- His account is there, and still his pen name is gone. -/
theorem failed_read_destroys_profile :
    ¬ Guarded userStep SignInKeepsProfile emptyUsers (aaronArrives ++ [aaronReturns]) := by
  intro h
  have hkept := h aaronArrives aaronReturns (List.prefix_refl _) _ _ _ _ rfl _ rfl
  have hname := congrArg (fun d => d.bind (· "userName")) hkept
  exact absurd hname (by decide)

/-! ### Opening the friend list -/

/-- Every profile lists the empty string among its friends. -/
def ListsEmpty (s : UserState D) : Prop :=
  ∀ u field, friendsField s u = some field → ∃ xs, field = some xs ∧ "" ∈ xs

theorem mem_addOnce {id x : String} {xs : List String} : x ∈ addOnce id xs ↔ x ∈ xs ∨ x = id := by
  unfold addOnce
  by_cases h : xs.contains id = true
  · rw [if_pos h]
    refine ⟨Or.inl, ?_⟩
    intro hx
    rcases hx with hx | rfl
    · exact hx
    · simpa using h
  · rw [if_neg h]
    simp

theorem listsEmpty_step (s : UserState D) (a : UserEvent D) (h : ListsEmpty s) :
    ListsEmpty (userStep s a) := by
  intro u field hfield
  rcases friendsField_step s a with hsame | ⟨v, d, -, hreg⟩ | ⟨p, c, xs, ys, hp, hc, hadd⟩
  · rw [hsame] at hfield
    exact h u field hfield
  · rw [hreg] at hfield
    by_cases hu : u = v
    · rw [if_pos hu] at hfield
      exact ⟨[""], (Option.some.inj hfield).symm, List.mem_singleton_self ""⟩
    · rw [if_neg hu] at hfield
      exact h u field hfield
  · -- A longer list still has what the shorter one had.
    have hlonger : ∀ w z zs, friendsField s w = some (some zs) → "" ∈ addOnce z zs := by
      intro w z zs hw
      obtain ⟨zs', heq, hmem⟩ := h w (some zs) hw
      rw [Option.some.inj heq]
      exact mem_addOnce.mpr (Or.inl hmem)
    rw [hadd] at hfield
    by_cases hup : u = p
    · rw [if_pos hup] at hfield
      exact ⟨_, (Option.some.inj hfield).symm, hlonger p c xs hp⟩
    · rw [if_neg hup] at hfield
      by_cases huc : u = c
      · rw [if_pos huc] at hfield
        exact ⟨_, (Option.some.inj hfield).symm, hlonger c p ys hc⟩
      · rw [if_neg huc] at hfield
        exact h u field hfield

theorem fetchUserDetails_of_ne (read : String × String → Snapshot) {id : String} (h : id ≠ "") :
    ∃ details, fetchUserDetails read id = .ok details := by
  simp only [fetchUserDetails, documentRef_of_ne h, bind, Except.bind]
  split
  · exact ⟨_, rfl⟩
  · exact ⟨none, rfl⟩

/-- All the requests of a list are made exactly when no id in it is empty. -/
theorem mapM_fetchUserDetails_iff (read : String × String → Snapshot) :
    ∀ ids : List String,
      (∃ details, ids.mapM (fetchUserDetails read) = .ok details) ↔ "" ∉ ids := by
  intro ids
  induction ids with
  | nil => exact ⟨fun _ => List.not_mem_nil, fun _ => ⟨[], rfl⟩⟩
  | cons id rest ih =>
      rw [List.mapM_cons, List.mem_cons, not_or, ← ih]
      by_cases hid : id = ""
      · subst hid
        refine ⟨?_, fun h => absurd rfl h.1⟩
        intro h
        obtain ⟨details, h⟩ := h
        simp [fetchUserDetails, documentRef, bind, Except.bind] at h
      · obtain ⟨first, hfirst⟩ := fetchUserDetails_of_ne read hid
        rw [hfirst]
        refine ⟨fun h => ⟨Ne.symm hid, ?_⟩, fun h => ?_⟩
        · obtain ⟨details, h⟩ := h
          cases hrest : rest.mapM (fetchUserDetails read) with
          | ok r => exact ⟨r, rfl⟩
          | error e => rw [hrest] at h; cases h
        · obtain ⟨-, details, h⟩ := h
          rw [h]
          exact ⟨first :: details, rfl⟩

/-- The friend list of a signed-in user opens exactly when no id on it is empty. -/
theorem fetchFriendDetails_iff (read : String × String → Snapshot) (userId : Uid) :
    (∃ details, fetchFriendDetails read (some userId) = .ok details) ↔
      ∀ ids, Snapshot.friends? (read (goodThingUsers, userId.1)) = some ids → "" ∉ ids := by
  simp only [fetchFriendDetails, documentRef_of_ne userId.2, bind, Except.bind]
  cases hids : Snapshot.friends? (read (goodThingUsers, userId.1)) with
  | none => exact ⟨fun _ ids h => (nomatch h), fun _ => ⟨[], rfl⟩⟩
  | some ids =>
      simp only [Option.some.injEq, forall_eq']
      rw [← mapM_fetchUserDetails_iff read]
      cases hmap : ids.mapM (fetchUserDetails read) with
      | ok details => exact ⟨fun _ => ⟨details, rfl⟩, fun _ => ⟨details.reduceOption, rfl⟩⟩
      | error e =>
          refine ⟨?_, ?_⟩
          · intro h
            obtain ⟨details, h⟩ := h
            cases h
          · intro h
            obtain ⟨details, h⟩ := h
            cases h

/--
Opening the friend list in a reachable state raises no exception exactly when there
is no list to go through: nobody is signed in on the device, the profile cannot be
read, or there is none.
-/
theorem friend_list_opens_iff (as : List (UserEvent D)) (device : D)
    (reached : String × String → Bool) :
    (∃ details, openFriendList (run userStep emptyUsers as) device reached = .ok details) ↔
      ∀ userId, (run userStep emptyUsers as).userId device = some userId →
        reached (goodThingUsers, userId.1) = true →
          profile (run userStep emptyUsers as) userId.1 = none := by
  have hempty : ListsEmpty (run userStep (emptyUsers : UserState D) as) := by
    refine run_invariant listsEmpty_step as emptyUsers ?_
    intro u field hfield
    cases hfield
  unfold openFriendList
  cases hid : (run userStep (emptyUsers : UserState D) as).userId device with
  | none => exact ⟨fun _ userId h => (nomatch h), fun _ => ⟨[], rfl⟩⟩
  | some userId =>
      rw [fetchFriendDetails_iff]
      refine ⟨?_, ?_⟩
      · intro h userId' heq hreached
        obtain rfl : userId = userId' := Option.some.inj heq
        by_contra hprofile
        obtain ⟨d, hd⟩ := Option.ne_none_iff_exists'.mp hprofile
        obtain ⟨ids, hids, hmem⟩ := hempty userId.1 (d.strings? "friends")
          (by simp [friendsField, hd])
        exact h ids (friends?_getDocument.mpr ⟨hreached, d, hd, hids⟩) hmem
      · intro h ids hids hmem
        obtain ⟨hreached, d, hd, -⟩ := friends?_getDocument.mp hids
        have hnone := h userId rfl hreached
        rw [profile, hd] at hnone
        cases hnone

/-- Aaron signs up and opens his friend list. -/
theorem new_friend_list_raises :
    openFriendList (run userStep (emptyUsers : UserState Unit) [
        .rigister () aaron ⟨some "aaron@mail.tw", some "123456", "1990.01.01", "2023.10.14 09:00"⟩
          (some aaron) fun _ => true])
      () (fun _ => true) = .error .emptyDocumentPath := by
  rfl

end GoodThing
