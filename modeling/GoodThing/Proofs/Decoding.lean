/-
Everything stored can be read back.

Seven controllers write field maps by hand, six structs read them, and a reader drops
what does not decode without a word.  Each map is compared with its struct once, when
it is first stored: it holds every key the struct asks for, with the right type.  From
then on documents change by partial updates and by whole groups written back.  A task
is only ever dated, which is not one of its coding keys; a profile gets new values of
the type it had; a group goes back as `encode` writes it.

A response needs a `userId` in `UserDefaults`.  Without one its `completerId` is null,
and it is the one document here that nobody can read.
-/
import GoodThing.Controller.Comment
import GoodThing.Proofs.Group
import GoodThing.Proofs.MemoryWall
import GoodThing.Proofs.Response
import Mathlib.Tactic.FinCases

namespace GoodThing

open Calendar Firestore Machine Rmw

variable {C D : Type} [DecidableEq C] [DecidableEq D]

/-! ### What is written once -/

theorem postTask_reads {form : TaskForm} {userId : Option String} {date id : String} {r : Rat}
    {d : Document} (h : postTask form userId date r id = some d) : taskCodec.Reads d := by
  obtain ⟨_, _, _, -, -, -, hstores, -⟩ := postTask_stores h
  exact hstores.reads

theorem replyTask_reads {form : ReplyForm} {task : Option GoodThingTasks} {userId taskId : String}
    {d : Document} (h : replyTask form task (some userId) = some (taskId, d)) :
    responseCodec.Reads d := by
  obtain ⟨title, content, task, -, -, -, -, rfl⟩ := replyTask_eq h
  exact Codec.reads_encode (c := responseCodec) ⟨task.taskCreatorId, userId, "",
    form.recordingURL.getD "", form.imageURL.getD "", title, content, form.time⟩

/-- Without a `userId` it is not readable. -/
theorem replyTask_unreadable {form : ReplyForm} {task : Option GoodThingTasks} {taskId : String}
    {d : Document} (h : replyTask form task none = some (taskId, d)) :
    GoodThingTasksResponses.decode d = none := by
  obtain ⟨title, content, task, -, -, -, -, rfl⟩ := replyTask_eq h
  rfl

theorem postMemory_reads {form : MemoryForm} {id : String} {d : Document}
    (h : postMemory form id = some d) : memoryCodec.Reads d := by
  obtain ⟨_, _, hstores⟩ := postMemory_stores h
  exact hstores.reads

theorem postCommet_reads {text : Option String} {memory : Option GoodThingMemory}
    {time id : String} {d : Document} (h : postCommet text memory time id = some d) :
    commentCodec.Reads d := by
  simp only [postCommet, Option.bind_eq_bind, Option.bind_eq_some_iff] at h
  obtain ⟨content, -, memory, -, hd⟩ := h
  have hstores : commentCodec.Stores ⟨content, time, "Aaron", id, memory.memoryID⟩ d := by
    rw [← Option.some.inj hd]
    intro k hk
    fin_cases hk <;> rfl
  exact hstores.reads

/-! ### Tasks -/

/-- The task can be read, and its coding keys are as they were posted under its id. -/
def AsPosted (as : List (DayAction C)) (id : String) (d : Document) : Prop :=
  ∃ form userId date r posted, .act (.postTask form userId r id) ∈ as ∧
    postTask form userId date r id = some posted ∧
    taskCodec.Reads d ∧ ∀ k ∈ taskCodec.keys, d k = posted k

omit [DecidableEq C] in
theorem AsPosted.dated {as : List (DayAction C)} {id : String} {d : Document}
    (h : AsPosted as id d) (date : String) :
    AsPosted as id (d.update [("lastFetchedTime", .string date)]) := by
  obtain ⟨form, userId, date₀, r, posted, hmem, hposted, hreads, hkeys⟩ := h
  have hother : ∀ k ∈ taskCodec.keys, k ∉ [("lastFetchedTime", Value.string date)].map (·.1) := by
    simp [taskCodec]
  refine ⟨form, userId, date₀, r, posted, hmem, hposted, hreads.update_of_notMem hother, ?_⟩
  intro k hk
  rw [Document.update_of_notMem (hother k hk)]
  exact hkeys k hk

theorem asPosted_step {as : List (DayAction C)} (s : PoolDays C) (a : DayAction C) (ha : a ∈ as)
    (h : EveryTask (AsPosted as) s) : EveryTask (AsPosted as) (dayStep s a) := by
  refine everyTask_step (fun id d date hd => hd.dated date) s a ?_ h
  rintro form userId r id rfl date d hd
  exact ⟨form, userId, date, r, d, ha, hd, postTask_reads hd, fun _ _ => rfl⟩

/-! ### Profiles

One lemma for each write to a profile: what it leaves there can be read, if what it
found could.
-/

theorem blankProfile_reads (uid birthday registrationTime : String) :
    userCodec.Reads (blankProfile uid birthday registrationTime) :=
  Codec.reads_encode (c := userCodec) ⟨uid, "", birthday, registrationTime, "", "", "", [""], [""],
    [""], [""], [""], [""]⟩

/-- An update of the three texts is one of the record. -/
theorem stores_userInfo {x : GoodThingUser} {d : Document} (h : userCodec.Stores x d)
    (penName introduction favoriteSentence : String) :
    userCodec.Stores { x with
      userName := penName, introduction := introduction, favoriteSentence := favoriteSentence }
      (d.update [("userName", .string penName), ("introduction", .string introduction),
        ("favoriteSentence", .string favoriteSentence)]) := by
  refine h.update ?_
  intro k hk
  fin_cases hk <;> rfl

/-- `latestPostedTaskId` is not a coding key; the struct has `latestPublishedTaskId`. -/
theorem stores_latestPostedTask {x : GoodThingUser} {d : Document} (h : userCodec.Stores x d)
    (id : String) : userCodec.Stores x (d.update [("latestPostedTaskId", .string id)]) :=
  h.update_of_notMem (by simp [userCodec])

theorem stores_friends {x : GoodThingUser} {d : Document} (h : userCodec.Stores x d)
    (friends : List String) :
    userCodec.Stores { x with friends := friends } (d.update [("friends", .strings friends)]) := by
  refine h.update ?_
  intro k hk
  fin_cases hk <;> rfl

/-- No write makes a profile unreadable. -/
theorem keepsProfiles {w : Write} (h : ProfileWrite w) :
    w.Keeps goodThingUsers userCodec.Reads := by
  cases h with
  | registration uid birthday registrationTime =>
      intro _
      exact blankProfile_reads uid birthday registrationTime
  | account uid info =>
      intro hpath
      exact absurd hpath.symm goodThingUsers_ne_userAccountInfo
  | userInfo uid penName introduction favoriteSentence =>
      rintro - d ⟨x, -, hx⟩
      exact (stores_userInfo hx penName introduction favoriteSentence).reads
  | latestTask uid id =>
      rintro - d ⟨x, -, hx⟩
      exact (stores_latestPostedTask hx id).reads
  | friends u xs =>
      rintro - d ⟨x, -, hx⟩
      exact (stores_friends hx xs).reads

/-- Every profile can be read. -/
def ProfilesDecode (s : UserState D) : Prop := s.store.All goodThingUsers userCodec.Reads

theorem profilesDecode_step (s : UserState D) (a : UserEvent D) (h : ProfilesDecode s) :
    ProfilesDecode (userStep s a) := store_all_step (fun _ hw => keepsProfiles hw) s a h

/-! ### Groups -/

/-- The stored group can be read. -/
def GroupDecodes (document : Option Document) : Prop :=
  ∃ d, document = some d ∧ groupCodec.Reads d

/-- What a join writes back can be read. -/
theorem modifyCurrentPeopleNumber_decodes (document : Option Document) (userId : String)
    (w : Option Document) (h : (modifyCurrentPeopleNumber document userId).2 = some w) :
    GroupDecodes w := by
  rcases modifyCurrentPeopleNumber_cases document userId with
    ⟨-, heq⟩ | ⟨g, -, ⟨n, -, -, -, heq⟩ | ⟨-, heq⟩ | ⟨-, heq⟩⟩
  · rw [heq] at h
    cases h
  · rw [heq] at h
    rw [← Option.some.inj h]
    exact ⟨_, rfl, Codec.reads_encode (c := groupCodec) _⟩
  · rw [heq] at h
    rw [← Option.some.inj h]
    exact ⟨_, rfl, Codec.reads_encode (c := groupCodec) g⟩
  · rw [heq] at h
    cases h

theorem postGroup_decodes {form : GroupForm} {id : String} {d : Document}
    (h : postGroup form id = some d) : GroupDecodes (some d) := by
  obtain ⟨g, rfl, -⟩ := postGroup_eq h
  exact ⟨_, rfl, Codec.reads_encode (c := groupCodec) g⟩

/-! ### Every document -/

/--
Every document decodes for its reader, with every field as it is stored: a profile, a
task and a group in every state of every run, the others as they are written.
-/
theorem stored_documents_decode :
    (∀ as : List (UserEvent D), Always userStep ProfilesDecode emptyUsers as) ∧
    (∀ today (as : List (DayAction C)),
      Always dayStep (EveryTask (AsPosted as)) (startDays today) as) ∧
    (∀ form task userId taskId d, replyTask form task (some userId) = some (taskId, d) →
      responseCodec.Reads d) ∧
    (∀ form id d, postGroup form id = some d → ∀ (userId : C → String) (as : List (Action C)),
      Always groupStep (fun s => GroupDecodes s.value) (start (some d) userId) as) ∧
    (∀ form id d, postMemory form id = some d → memoryCodec.Reads d) ∧
    (∀ text memory time id d, postCommet text memory time id = some d → commentCodec.Reads d) := by
  refine ⟨?_, ?_, fun _ _ _ _ _ h => replyTask_reads h, ?_,
    fun _ _ _ h => postMemory_reads h, fun _ _ _ _ _ h => postCommet_reads h⟩
  · intro as
    refine always_of_invariant profilesDecode_step ?_ as
    intro id d hd
    cases hd
  · intro today as
    refine always_of_mem asPosted_step ⟨?_, ?_⟩ fun a ha => ha
    · intro id d hd
      cases hd
    · intro id d hd
      cases hd
  · intro form id d hpost userId as
    have hall := always_holds (C := C) (P := GroupDecodes)
      (fun v u w _ hw => modifyCurrentPeopleNumber_decodes v u w hw) (postGroup_decodes hpost)
      userId as
    exact hall.mono fun _ hs => hs.value

/-- Ella's task, and the answer to it. -/
def ellasTask : GoodThingTasks :=
  ⟨"t1", "打招呼", "跟鄰居說早安", some "", none, "ella", "2023.10.13 20:15"⟩

def neighbourSmiles : ReplyForm :=
  ⟨some "早安", some "鄰居笑了", none, none, "2023.10.15 10:00"⟩

/-- Aaron's profile, his answer, the beach cleaning, and a memory with a comment. -/
theorem stored_documents_decode_aaron :
    ∃ response group memory m comment,
      replyTask neighbourSmiles (some ellasTask) (some "aaron") = some ("t1", response) ∧
      postGroup (beachForm "10") "g1" = some group ∧
      postMemory rainyDay "m1" = some memory ∧ GoodThingMemory.decode memory = some m ∧
      postCommet (some "謝謝") (some m) "2023.10.14 22:00" "c1" = some comment ∧
      Always userStep ProfilesDecode emptyUsers aaronArrives ∧
      responseCodec.Reads response ∧
      Always groupStep (fun s => GroupDecodes s.value) (start (some group) fun _ => defaultUserId)
        [.read (), .callback (), .write ()] ∧
      memoryCodec.Reads memory ∧ commentCodec.Reads comment := by
  obtain ⟨hprofiles, -, hresponses, hgroups, hmemories, hcomments⟩ :=
    stored_documents_decode (C := Unit) (D := Unit)
  obtain ⟨response, hresponse⟩ : ∃ response,
    replyTask neighbourSmiles (some ellasTask) (some "aaron") = some ("t1", response) := ⟨_, rfl⟩
  obtain ⟨group, hgroup⟩ : ∃ group, postGroup (beachForm "10") "g1" = some group := ⟨_, rfl⟩
  obtain ⟨memory, hmemory, m, hm⟩ : ∃ memory, postMemory rainyDay "m1" = some memory ∧
    ∃ m, GoodThingMemory.decode memory = some m := ⟨_, rfl, _, rfl⟩
  obtain ⟨comment, hcomment⟩ : ∃ comment,
    postCommet (some "謝謝") (some m) "2023.10.14 22:00" "c1" = some comment := ⟨_, rfl⟩
  exact ⟨response, group, memory, m, comment, hresponse, hgroup, hmemory, hm, hcomment,
    hprofiles aaronArrives, hresponses _ _ _ _ _ hresponse, hgroups _ _ _ hgroup _ _,
    hmemories _ _ _ hmemory, hcomments _ _ _ _ _ hcomment⟩

end GoodThing
