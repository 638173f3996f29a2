/-
How to become one's own friend.

Nothing on the way from posting a task to agreeing with a response asks whether the
two are the same user: `fetchTask` hands out one's own task, `replyTask` answers it,
and `addFriend` appends a user to their own list like anybody else.
`nobody_own_friend_iff` says that agreeing with one's own response is the only way,
whatever else happens in between.
-/
import GoodThing.Controller.Response
import GoodThing.Proofs.TaskQuery
import GoodThing.Proofs.User

namespace GoodThing

open Firestore Machine Calendar

variable {D C : Type} [DecidableEq D]

/-! ### An answer -/

/-- What `replyTask` stores. -/
theorem replyTask_eq {form : ReplyForm} {task : Option GoodThingTasks} {userId : Option String}
    {taskId : String} {d : Document} (h : replyTask form task userId = some (taskId, d)) :
    ∃ (title content : String) (task' : GoodThingTasks),
      filled form.replyTitle = some title ∧ filled form.replyContent = some content ∧
      task = some task' ∧ filled (some task'.taskId) = some taskId ∧ d = Document.ofFields [
      ("taskPosterId", .string task'.taskCreatorId),
      ("completerId", userId.elim .null .string),
      ("completionStatus", .string ""),
      ("responseRecording", .string (form.recordingURL.getD "")),
      ("responseImage", .string (form.imageURL.getD "")),
      ("responseTitle", .string title),
      ("responseContent", .string content),
      ("responseTime", .string form.time)] := by
  simp only [replyTask, Option.bind_eq_bind, Option.bind_eq_some_iff] at h
  obtain ⟨title, htitle, content, hcontent, task, htask, id, hid, hd⟩ := h
  obtain ⟨rfl, hd'⟩ := Prod.mk.inj (Option.some.inj hd)
  exact ⟨title, content, task, htitle, hcontent, htask, hid, hd'.symm⟩

/-! ### One's own list -/

/-- Nobody is on their own list of friends. -/
def NotOwnFriend (s : UserState D) : Prop := ∀ u : Uid, u.1 ∉ friends s u.1

omit [DecidableEq D] in
theorem friends_eq (s : UserState D) (u : String) :
    friends s u = ((friendsField s u).bind id).getD [] := by
  unfold friends friendsField
  cases profile s u with
  | none => rfl
  | some d => rfl

omit [DecidableEq D] in
/-- A list that is started has nobody on it. -/
theorem FriendsStarted.notOwnFriend {asked : List Write} {s s' : UserState D}
    (hstep : FriendsStarted asked s s') (h : NotOwnFriend s) : NotOwnFriend s' := by
  intro u hu
  rw [friends_eq] at hu
  rcases hstep with hsame | ⟨v, d, -, hstarted⟩
  · rw [hsame, ← friends_eq] at hu
    exact h u hu
  · rw [hstarted] at hu
    by_cases huv : u.1 = v
    · rw [if_pos huv] at hu
      exact u.2 (List.mem_singleton.mp hu)
    · rw [if_neg huv, ← friends_eq] at hu
      exact h u hu

/-- Two different users are not put on their own lists. -/
theorem notOwnFriend_addFriend {s : UserState D} {p c : String} (hne : p ≠ c)
    (reached : String → Bool) (commits : Bool) (h : NotOwnFriend s) :
    NotOwnFriend (userStep s (.addFriend p c reached commits)) := by
  intro u hu
  rw [friends_eq] at hu
  rcases friendsField_addFriend s p c reached commits with hsame | ⟨xs, ys, -, hp, hc, hadded⟩
  · rw [hsame, ← friends_eq] at hu
    exact h u hu
  · rw [hadded] at hu
    have hown : ∀ (v w : String) (zs : List String), u.1 = v → v ≠ w →
        friendsField s v = some (some zs) → u.1 ∉ addOnce w zs := by
      intro v w zs huv hvw hv hmem
      rcases mem_addOnce.mp hmem with hold | heq
      · refine h u ?_
        rw [friends_eq, huv, hv]
        rw [huv] at hold
        exact hold
      · exact hvw (huv.symm.trans heq)
    by_cases hup : u.1 = p
    · rw [if_pos hup] at hu
      exact hown p c xs hup hne hp hu
    · rw [if_neg hup] at hu
      by_cases huc : u.1 = c
      · rw [if_pos huc] at hu
        exact hown c p ys huc hne.symm hc hu
      · rw [if_neg huc, ← friends_eq] at hu
        exact h u hu

/-- A user is put on their own list exactly when the transaction goes through. -/
theorem notOwnFriend_self_iff {s : UserState D} (hlists : ListsEmpty s) (h : NotOwnFriend s)
    (u : Uid) (reached : String → Bool) (commits : Bool) :
    NotOwnFriend (userStep s (.addFriend u.1 u.1 reached commits)) ↔
      (reached u.1 = true → commits = true → profile s u.1 = none) := by
  refine ⟨?_, ?_⟩
  · intro hnext hreached hcommits
    by_contra hprofile
    obtain ⟨d, hd⟩ := Option.ne_none_iff_exists'.mp hprofile
    obtain ⟨xs, hxs, -⟩ := hlists u.1 (d.strings? "friends") (by simp [friendsField, hd])
    have hthrough := addFriend_goes_through u.2 u.2 hd hxs hd hxs hreached hreached
    refine hnext u ?_
    have hfield : friendsField (userStep s (.addFriend u.1 u.1 reached commits)) u.1
        = some (some (addOnce u.1 xs)) := by
      rw [hcommits]
      simp only [friendsField, profile, userStep, hthrough]
      rw [document_befriended hd hxs hd hxs, if_pos rfl]
    rw [friends_eq, hfield]
    exact mem_addOnce.mpr (Or.inr rfl)
  · intro hblocked v hv
    rcases friendsField_addFriend s u.1 u.1 reached commits with
      hsame | ⟨xs, ys, ⟨hreached, -, hcommits⟩, hp, -, -⟩
    · rw [friends_eq, hsame, ← friends_eq] at hv
      exact h v hv
    · rw [profile_eq_none_iff.mp (hblocked hreached hcommits)] at hp
      cases hp

/-! ### What a step can do to the profiles -/

variable [DecidableEq C]

/-- Everything a step can do to the profiles: agreeing is the only way to a friend. -/
theorem users_appStep (home : C → D) (s : AppState D C) (a : AppAction D C) :
    (appStep home s a).users = s.users ∨
    (∃ e, (appStep home s a).users = userStep s.users e ∧
      ∀ p c reached commits, e ≠ .addFriend p c reached commits) ∨
    ∃ device reached commits user completerId, a = .agreeButtonTapped device reached commits ∧
      s.currentUser device = some user ∧ (s.reception device).completerId = some completerId ∧
      (appStep home s a).users =
        userStep s.users (.addFriend user.1 completerId reached commits) := by
  cases a with
  | rigister device user form accepted =>
      exact Or.inr (Or.inl ⟨.rigister device user form (some user) accepted, rfl, by simp⟩)
  | signIn device user => exact Or.inr (Or.inl ⟨.signIn device user, rfl, by simp⟩)
  | saveUserInfo userId info account accepted =>
      exact Or.inr (Or.inl ⟨.saveUserInfo userId info account accepted, rfl, by simp⟩)
  | updateUserInfo device form accepted =>
      exact Or.inr (Or.inl ⟨.updateUserInfo device form accepted, rfl, by simp⟩)
  | newDay => exact Or.inl rfl
  | postTask device form randomValue id =>
      left
      simp only [appStep]
      split
      · split <;> rfl
      · rfl
  | storeTask id => exact Or.inl rfl
  | postTaskCompletes id accepted =>
      simp only [appStep]
      split
      · rename_i device user hposter
        split
        · exact Or.inr (Or.inl ⟨.taskPosted user id accepted, rfl, by simp⟩)
        · exact Or.inl rfl
      · exact Or.inl rfl
  | fetchTask c randomValue => exact Or.inl rfl
  | getDocuments c => exact Or.inl rfl
  | getDocumentsFails c => exact Or.inl rfl
  | updateData c => exact Or.inl rfl
  | replyTask c form id =>
      left
      simp only [appStep]
      split
      · split <;> rfl
      · rfl
  | storeResponse taskId id => left; simp only [appStep]; split <;> rfl
  | openReception device => left; simp only [appStep]; split <;> rfl
  | receptionAnswered device reached => exact Or.inl rfl
  | agreeButtonTapped device reached commits =>
      simp only [appStep]
      split
      · rename_i user completerId huser hcompleter
        exact Or.inr (Or.inr
          ⟨device, reached, commits, user, completerId, rfl, huser, hcompleter, rfl⟩)
      · exact Or.inl rfl

/-! ### Every run -/

/-- Nobody is on their own list, whatever the screens show. -/
def NobodyOwnFriend (s : AppState D C) : Prop := NotOwnFriend s.users

/--
Nobody agrees with their own response, unless the transaction fails or they have no
profile.
-/
def AgreesWithOthers (s : AppState D C) (a : AppAction D C) : Prop :=
  ∀ device reached commits user, a = .agreeButtonTapped device reached commits →
    s.currentUser device = some user → (s.reception device).completerId = some user.1 →
      reached user.1 = true → commits = true → profile s.users user.1 = none

theorem listsEmpty_appStep (home : C → D) (s : AppState D C) (a : AppAction D C)
    (h : ListsEmpty s.users) : ListsEmpty (appStep home s a).users := by
  rcases users_appStep home s a with heq | ⟨e, heq, -⟩ | ⟨_, _, _, _, _, -, -, -, heq⟩
  · rw [heq]
    exact h
  · rw [heq]
    exact listsEmpty_step s.users e h
  · rw [heq]
    exact listsEmpty_step s.users _ h

/-- Whether a step leaves everybody off their own list. -/
theorem nobodyOwnFriend_step_iff (home : C → D) (s : AppState D C) (a : AppAction D C)
    (hlists : ListsEmpty s.users) (h : NobodyOwnFriend s) :
    NobodyOwnFriend (appStep home s a) ↔ AgreesWithOthers s a := by
  by_cases hagree : ∃ device reached commits user, a = .agreeButtonTapped device reached commits ∧
      s.currentUser device = some user ∧ (s.reception device).completerId = some user.1
  · obtain ⟨device, reached, commits, user, rfl, huser, hcompleter⟩ := hagree
    have heq : (appStep home s (.agreeButtonTapped device reached commits)).users
        = userStep s.users (.addFriend user.1 user.1 reached commits) := by
      simp only [appStep, huser, hcompleter]
    unfold NobodyOwnFriend
    rw [heq, notOwnFriend_self_iff hlists h]
    refine ⟨?_, fun hguard => hguard device reached commits user rfl huser hcompleter⟩
    intro hblocked device' reached' commits' user' ha huser' _
    obtain ⟨rfl, rfl, rfl⟩ := AppAction.agreeButtonTapped.inj ha
    obtain rfl : user = user' := Option.some.inj (huser.symm.trans huser')
    exact hblocked
  · -- Nobody agrees with themselves, and the guard asks for nothing.
    refine ⟨?_, ?_⟩
    · intro _ device reached commits user ha huser hcompleter
      exact absurd ⟨device, reached, commits, user, ha, huser, hcompleter⟩ hagree
    intro _
    unfold NobodyOwnFriend
    rcases users_appStep home s a with heq | ⟨e, heq, hquiet⟩ |
      ⟨device, reached, commits, user, completerId, ha, huser, hcompleter, heq⟩
    · rw [heq]
      exact h
    · rw [heq]
      exact (friendsStarted_step s.users e hquiet).notOwnFriend h
    · rw [heq]
      refine notOwnFriend_addFriend (fun hsame => hagree ?_) reached commits h
      exact ⟨device, reached, commits, user, ha, huser, by rw [hcompleter, hsame]⟩

/--
Nobody is on their own list of friends, in any state of a run, exactly when nobody
who has a profile agrees with their own response and gets through.
-/
theorem nobody_own_friend_iff (home : C → D) (today : Day) (as : List (AppAction D C)) :
    Always (appStep home) NobodyOwnFriend (startApp today) as ↔
      Guarded (appStep home) AgreesWithOthers (startApp today) as := by
  refine always_iff_guarded (J := fun s => ListsEmpty s.users) (listsEmpty_appStep home)
    (nobodyOwnFriend_step_iff home) as ?_ ?_
  · intro u field hfield
    cases hfield
  · intro u hu
    cases hu

/-- Aaron posts a task, is handed it the next day, answers it, and likes the answer. -/
def aaronAlone : List (AppAction Unit Unit) := [
  .rigister () aaron ⟨some "aaron@mail.tw", some "123456", "1990.01.01", "2023.10.14 09:00"⟩
    fun _ => true,
  .postTask () greeting (1 / 2) "t1", .storeTask "t1", .postTaskCompletes "t1" fun _ => true,
  .newDay, .fetchTask () 0, .getDocuments (), .updateData (),
  .replyTask () ⟨some "早安", some "鄰居笑了", none, none, "2023.10.15 10:00"⟩ "r1",
  .storeResponse "t1" "r1", .openReception (), .receptionAnswered () true,
  .agreeButtonTapped () (fun _ => true) true]

theorem own_friend :
    ¬ Always (appStep id) NobodyOwnFriend (startApp october14) aaronAlone := by
  intro h
  exact h.last aaron (by decide +kernel)

end GoodThing
