/-
What the query of `fetchTask` lets through, and what it misses.

The query asks for a task dated yesterday whose number exceeds the one drawn, and
for nothing else.  It does not start over from zero when no number is that large,
so a draw can come back with nothing although there are tasks; `draw_answered_iff`
says which draws do.  And it does not ask for `privacyStatus`, as the query of
`fetchUserPostedTasks` does, so a private task is handed out like any other;
`private_tasks_iff` says that only the posts themselves can prevent it.
-/
import GoodThing.Proofs.TaskPool

namespace GoodThing

open Firestore Machine Calendar

/-- The number a task carries. -/
def randomSelectionValue (d : Document) : Option Rat := d "randomSelectionValue" >>= Value.number?

/-- A number as `Double.random(in: 0..<1)` draws it. -/
abbrev Draw := { r : Rat // 0 ≤ r ∧ r < 1 }

theorem lastFetchedTime_eq_some {d : Document} {date : String} :
    lastFetchedTime d = some date ↔ d "lastFetchedTime" = some (.string date) := by
  unfold lastFetchedTime Document.string?
  cases h : d "lastFetchedTime" with
  | none => simp
  | some v => cases v <;> simp [Value.asString]

/-- The documents `fetchTask` can get to see. -/
theorem fetchTaskQuery_admits {y : String} {r : Rat} {d : Document} :
    (fetchTaskQuery y r).admits d = true ↔
      lastFetchedTime d = some y ∧ ∃ x, randomSelectionValue d = some x ∧ r < x := by
  simp only [Query.admits, fetchTaskQuery, List.all_cons, List.all_nil, Bool.and_true,
    Bool.and_eq_true, Filter.admits_isEqualTo_string, Filter.admits_isGreaterThan_double,
    lastFetchedTime_eq_some]
  refine ⟨fun h => h.1, fun h => ⟨h, ?_⟩⟩
  -- The query also sorts by the number, and a task that passes has one.
  obtain ⟨-, x, hx, -⟩ := h
  obtain ⟨v, hv, -⟩ := Option.bind_eq_some_iff.mp hx
  rw [hv]
  rfl

/-! ### Draws that come back with nothing -/

/-- A collection of tasks that decode, each with a number in `[0, 1)`. -/
structure TaskCollection where
  documents : Collection
  decodes : ∀ id d, documents.lookup id = some d → ∃ task, GoodThingTasks.decode d = some task
  number : ∀ id d, documents.lookup id = some d →
    ∃ x : Draw, randomSelectionValue d = some x.1

/-- There is a task of this date. -/
def HasTask (tasks : Collection) (date : String) : Prop :=
  ∃ id d, tasks.lookup id = some d ∧ lastFetchedTime d = some date

/-- There is a task of this date with a number above the one drawn. -/
def HasTaskAbove (tasks : Collection) (date : String) (r : Rat) : Prop :=
  ∃ id d, tasks.lookup id = some d ∧ lastFetchedTime d = some date ∧
    ∃ x, randomSelectionValue d = some x ∧ r < x

/-- A draw is answered with a task exactly when one of yesterday's numbers exceeds it. -/
theorem fetchedTask_isSome_iff (tasks : TaskCollection) (y : String) (r : Rat) :
    (fetchedTask ((fetchTaskQuery y r).getDocuments tasks.documents)).isSome = true ↔
      HasTaskAbove tasks.documents y r := by
  refine ⟨?_, ?_⟩
  · intro h
    unfold fetchedTask at h
    split at h
    · rename_i id d hhead
      obtain ⟨hd, hadmits⟩ := Query.mem_getDocuments (List.mem_of_mem_head? hhead)
      exact ⟨id, d, hd, fetchTaskQuery_admits.mp hadmits⟩
    · cases h
  · intro h
    obtain ⟨id, d, hd, habove⟩ := h
    obtain ⟨x, hhead⟩ := Query.head?_getDocuments (q := fetchTaskQuery y r)
      (by simp [fetchTaskQuery]) hd (fetchTaskQuery_admits.mpr habove)
    obtain ⟨hx, -⟩ := Query.mem_getDocuments (List.mem_of_mem_head? hhead)
    obtain ⟨task, htask⟩ := tasks.decodes x.1 x.2 hx
    unfold fetchedTask
    rw [hhead]
    simp [htask]

/--
A draw on a day after which there are tasks is answered with one exactly when it is
below the greatest of their numbers.
-/
theorem draw_answered_iff (tasks : TaskCollection) (y : String) (r : Draw) :
    (HasTask tasks.documents y →
      (fetchedTask ((fetchTaskQuery y r.1).getDocuments tasks.documents)).isSome = true) ↔
    (HasTask tasks.documents y → HasTaskAbove tasks.documents y r.1) := by
  rw [fetchedTask_isSome_iff]

/-- Some draw is not exceeded by any of finitely many numbers below one. -/
theorem exists_draw_above :
    ∀ docs : List (String × Document),
      (∀ x ∈ docs, ∃ r : Draw, randomSelectionValue x.2 = some r.1) →
        ∃ r : Draw, ∀ x ∈ docs, ∀ v, randomSelectionValue x.2 = some v → v ≤ r.1 := by
  intro docs
  induction docs with
  | nil => intro _; exact ⟨⟨0, by decide +kernel⟩, fun x hx => absurd hx List.not_mem_nil⟩
  | cons a rest ih =>
      intro hnumber
      obtain ⟨r, hr⟩ := ih fun x hx => hnumber x (List.mem_cons_of_mem a hx)
      obtain ⟨n, hn⟩ := hnumber a List.mem_cons_self
      have hhead : ∀ v, randomSelectionValue a.2 = some v → v = n.1 := by
        intro v hv
        exact Option.some.inj (hv.symm.trans hn)
      by_cases hle : n.1 ≤ r.1
      · refine ⟨r, ?_⟩
        intro x hx v hv
        rcases List.mem_cons.mp hx with rfl | hrest
        · rw [hhead v hv]
          exact hle
        · exact hr x hrest v hv
      · refine ⟨n, ?_⟩
        intro x hx v hv
        rcases List.mem_cons.mp hx with rfl | hrest
        · obtain rfl := hhead v hv
          exact Rat.le_refl
        · exact Rat.le_trans (hr x hrest v hv) (Rat.le_of_lt (Rat.not_le.mp hle))

/-- Whatever the collection holds, some draw comes back with nothing. -/
theorem some_draw_unanswered (tasks : TaskCollection) (y : String) :
    ∃ r : Draw,
      (fetchedTask ((fetchTaskQuery y r.1).getDocuments tasks.documents)).isSome = false := by
  obtain ⟨r, hr⟩ := exists_draw_above tasks.documents.documents fun x hx =>
    tasks.number x.1 x.2 (Collection.mem_documents.mp hx)
  refine ⟨r, ?_⟩
  rw [← Bool.not_eq_true, fetchedTask_isSome_iff]
  intro habove
  obtain ⟨id, d, hd, -, x, hx, hlt⟩ := habove
  exact Rat.not_le.mpr hlt (hr (id, d) (Collection.mem_documents.mpr hd) x hx)

/-- One task posted the day before, with the number one half. -/
def oneTask : TaskCollection where
  documents := (∅ : Collection).insert "t1" ((postTask greeting (some "ella") "2023.10.13" (1 / 2)
    "t1").getD fun _ => none)
  decodes := by
    intro id d hd
    rcases lookup_insert_cases hd with ⟨-, rfl⟩ | ⟨-, hold⟩
    · exact ⟨⟨"t1", "打招呼", "跟鄰居說早安", some "", none, "ella", "2023.10.13 20:15"⟩, rfl⟩
    · cases hold
  number := by
    intro id d hd
    rcases lookup_insert_cases hd with ⟨-, rfl⟩ | ⟨-, hold⟩
    · exact ⟨⟨1 / 2, by decide +kernel⟩, rfl⟩
    · cases hold

def threeQuarters : Draw := ⟨3 / 4, by decide +kernel⟩

/-- Whoever draws three quarters goes without it. -/
theorem high_draw_unanswered :
    ¬ (HasTask oneTask.documents "2023.10.13" →
      (fetchedTask ((fetchTaskQuery "2023.10.13" threeQuarters.1).getDocuments
        oneTask.documents)).isSome = true) := by
  intro h
  have hanswered := h ⟨"t1", _, rfl, rfl⟩
  have hnone : (fetchedTask ((fetchTaskQuery "2023.10.13" threeQuarters.1).getDocuments
      oneTask.documents)).isSome = false := by decide +kernel
  rw [hnone] at hanswered
  cases hanswered

/-! ### What every task in the pool is like -/

variable {C : Type} [DecidableEq C]

/-- Every task that is stored or on its way has `Q`, under its id. -/
structure EveryTask (Q : String → Document → Prop) (s : PoolDays C) : Prop where
  stored : ∀ id d, s.pool.tasks.lookup id = some d → Q id d
  posting : ∀ id d, s.pool.posting.lookup id = some d → Q id d

/-- A step keeps it if what is posted has it and dating a task does not take it away. -/
theorem everyTask_step {Q : String → Document → Prop}
    (hdate : ∀ id d date, Q id d → Q id (d.update [("lastFetchedTime", .string date)]))
    (s : PoolDays C) (a : DayAction C)
    (hpost : ∀ form userId r id, a = .act (.postTask form userId r id) →
      ∀ date d, postTask form userId date r id = some d → Q id d)
    (h : EveryTask Q s) : EveryTask Q (dayStep s a) := by
  cases a with
  | newDay => exact ⟨h.stored, h.posting⟩
  | act b =>
      show EveryTask Q { s with pool := poolStep s.today s.pool b }
      rcases poolStep_cases s.today s.pool b with heq | ⟨form, userId, r, id, d, rfl, hd, -, heq⟩ |
        ⟨id, d, -, hd, heq⟩ | ⟨_, _, _, -, -, -, heq⟩ | ⟨_, _, _, _, _, _, -, -, -, heq⟩ |
        ⟨_, _, _, _, -, -, heq⟩ | ⟨c, date, id, task, -, -, heq⟩
      · rw [heq]
        exact ⟨h.stored, h.posting⟩
      · rw [heq]
        refine ⟨h.stored, ?_⟩
        intro id' d' hd'
        rcases lookup_insert_cases hd' with ⟨rfl, rfl⟩ | ⟨-, hold⟩
        · exact hpost form userId r _ rfl _ _ hd
        · exact h.posting id' d' hold
      · rw [heq]
        refine ⟨?_, ?_⟩
        · intro id' d' hd'
          rcases lookup_insert_cases hd' with ⟨rfl, rfl⟩ | ⟨-, hold⟩
          · exact h.posting _ d' hd
          · exact h.stored id' d' hold
        · intro id' d' hd'
          by_cases hid : id' = id
          · rw [hid, AList.lookup_erase] at hd'
            cases hd'
          · rw [AList.lookup_erase_ne hid] at hd'
            exact h.posting id' d' hd'
      · rw [heq]
        exact ⟨h.stored, h.posting⟩
      · rw [heq]
        exact ⟨h.stored, h.posting⟩
      · rw [heq]
        exact ⟨h.stored, h.posting⟩
      · rw [heq]
        refine ⟨?_, h.posting⟩
        intro id' d' hd'
        rw [lookup_dated_eq] at hd'
        by_cases hid : id' = id
        · rw [if_pos hid] at hd'
          obtain ⟨d, hd, rfl⟩ := Option.map_eq_some_iff.mp hd'
          rw [hid]
          exact hdate id d date (h.stored id d hd)
        · rw [if_neg hid] at hd'
          exact h.stored id' d' hd'

/-! ### Private tasks -/

/-- The task was posted with `privacy: true`. -/
def IsPrivate (d : Document) : Prop := d "privacyStatus" = some (.boolean true)

/-- One tap on one of the post buttons. -/
structure Post where
  form : TaskForm
  userId : Option String
  randomValue : Rat
  id : String

/-- Whose task the post is, if its guards let it through. -/
def Post.creator? (p : Post) : Option String := do
  let _ ← filled p.form.taskTitle
  let _ ← filled p.form.taskContent
  p.userId

/-- The document of one of these posts, whatever its date. -/
def ComesFrom (posts : List Post) (d : Document) : Prop :=
  ∃ p ∈ posts, ∃ creator, p.creator? = some creator ∧
    d "taskCreatorId" = some (.string creator) ∧
    d "privacyStatus" = some (.boolean p.form.privacyStatus) ∧
    randomSelectionValue d = some p.randomValue

theorem ComesFrom.update {posts : List Post} {d : Document} {date : String}
    (h : ComesFrom posts d) : ComesFrom posts (d.update [("lastFetchedTime", .string date)]) := by
  obtain ⟨p, hp, creator, hcreator, hid, hprivacy, hnumber⟩ := h
  refine ⟨p, hp, creator, hcreator, ?_, ?_, ?_⟩
  · rw [Document.update_of_notMem (by simp)]
    exact hid
  · rw [Document.update_of_notMem (by simp)]
    exact hprivacy
  · unfold randomSelectionValue
    rw [Document.update_of_notMem (by simp)]
    exact hnumber

/-- What `postTask` stores decodes, and comes from its post. -/
theorem postTask_comesFrom {posts : List Post} {p : Post} (hp : p ∈ posts) {date : String}
    {d : Document} (h : postTask p.form p.userId date p.randomValue p.id = some d) :
    ComesFrom posts d ∧ (GoodThingTasks.decode d).isSome = true := by
  obtain ⟨title, content, creator, htitle, hcontent, hcreator, hstores, hprivacy, hnumber, -⟩ :=
    postTask_stores h
  have hwhose : p.creator? = some creator := by
    simp [Post.creator?, htitle, hcontent, hcreator]
  refine ⟨⟨p, hp, creator, hwhose, ?_, hprivacy, ?_⟩, ?_⟩
  · exact hstores "taskCreatorId" (by simp [taskCodec])
  · rw [randomSelectionValue, hnumber]
    rfl
  · exact Option.isSome_iff_exists.mpr ⟨_, hstores.decode⟩

/-- The guards of `postTask` are those of `Post.creator?`. -/
theorem postTask_isSome {p : Post} {creator : String} (h : p.creator? = some creator)
    (date : String) : ∃ d, postTask p.form p.userId date p.randomValue p.id = some d := by
  simp only [Post.creator?, Option.bind_eq_bind, Option.bind_eq_some_iff] at h
  obtain ⟨title, htitle, content, hcontent, huser⟩ := h
  simp only [postTask, htitle, hcontent, huser, Option.bind_eq_bind, Option.bind_some]
  split
  · exact ⟨_, rfl⟩
  · exact ⟨_, rfl⟩

/-- Only these posts are made, and numbers are drawn as they are. -/
def Allowed (posts : List Post) : DayAction C → Prop
  | .act (.postTask form userId r id) => ⟨form, userId, r, id⟩ ∈ posts
  | .act (.fetchTask _ r) => 0 ≤ r ∧ r < 1
  | _ => True

/-- A query on its way asks for no less than zero, so what it was answered with has more. -/
structure Drawn (s : Pool C) : Prop where
  fresh : ∀ id, id ∈ s.posting → id ∉ s.tasks
  asked : ∀ c y date r, s.runs c = .asked y date r → 0 ≤ r
  delivered : ∀ c id, (s.runs c).delivered? = some id →
    ∃ d x, s.tasks.lookup id = some d ∧ randomSelectionValue d = some x ∧ 0 < x

theorem Drawn.put {s : Pool C} (h : Drawn s) {c : C} {run : FetchRun}
    (hasked : ∀ y date r, run = .asked y date r → 0 ≤ r)
    (hdelivered : ∀ id, run.delivered? = some id →
      ∃ d x, s.tasks.lookup id = some d ∧ randomSelectionValue d = some x ∧ 0 < x) :
    Drawn (s.put c run) := by
  refine ⟨h.fresh, ?_, ?_⟩
  · intro c' y date r hc'
    rw [Pool.put_runs] at hc'
    by_cases hc : c' = c
    · rw [if_pos hc] at hc'
      exact hasked y date r hc'
    · rw [if_neg hc] at hc'
      exact h.asked c' y date r hc'
  · intro c' id hc'
    rw [Pool.put_runs] at hc'
    by_cases hc : c' = c
    · rw [if_pos hc] at hc'
      exact hdelivered id hc'
    · rw [if_neg hc] at hc'
      exact h.delivered c' id hc'

omit [DecidableEq C] in
/-- Storing a post leaves the tasks that have been handed out alone. -/
theorem Drawn.store {s : Pool C} (h : Drawn s) {id : String} {d : Document}
    (hd : s.posting.lookup id = some d) :
    Drawn { s with tasks := s.tasks.insert id d, posting := s.posting.erase id } := by
  have hposting : id ∈ s.posting := AList.lookup_isSome.mp (by rw [hd]; rfl)
  refine ⟨?_, h.asked, ?_⟩
  · intro id' hid' hmem
    obtain ⟨hne, hold⟩ := AList.mem_erase.mp hid'
    exact h.fresh id' hold ((AList.mem_insert _).mp hmem |>.resolve_left hne)
  · intro c id' hc
    obtain ⟨d', x, hd', hx⟩ := h.delivered c id' hc
    have hne : id' ≠ id := by
      intro heq
      rw [heq] at hd'
      exact h.fresh id hposting (AList.lookup_isSome.mp (by rw [hd']; rfl))
    exact ⟨d', x, by rw [AList.lookup_insert_ne hne]; exact hd', hx⟩

omit [DecidableEq C] in
/-- Dating a task leaves its number alone. -/
theorem Drawn.date {s : Pool C} (h : Drawn s) (id date : String) :
    Drawn { s with tasks := dated s.tasks id date } := by
  have hnumber : ∀ d : Document,
      randomSelectionValue (d.update [("lastFetchedTime", .string date)])
        = randomSelectionValue d := by
    intro d
    unfold randomSelectionValue
    rw [Document.update_of_notMem (by simp)]
  have hmem : ∀ id', id' ∈ dated s.tasks id date → id' ∈ s.tasks := by
    intro id' hid'
    have hsome := AList.lookup_isSome.mpr hid'
    rw [lookup_dated_eq] at hsome
    by_cases hid : id' = id
    · rw [if_pos hid, Option.isSome_map] at hsome
      rw [hid]
      exact AList.lookup_isSome.mp hsome
    · rw [if_neg hid] at hsome
      exact AList.lookup_isSome.mp hsome
  refine ⟨fun id' hid' hdated => h.fresh id' hid' (hmem id' hdated), h.asked, ?_⟩
  intro c id' hc
  obtain ⟨d, x, hd, hx, hpos⟩ := h.delivered c id' hc
  show ∃ d x, (dated s.tasks id date).lookup id' = some d ∧ _
  rw [lookup_dated_eq]
  by_cases hid : id' = id
  · rw [if_pos hid, ← hid, hd]
    exact ⟨_, x, rfl, by rw [hnumber]; exact hx, hpos⟩
  · rw [if_neg hid]
    exact ⟨d, x, hd, hx, hpos⟩

theorem drawn_step (today : Day) (s : Pool C) (a : PoolAction C)
    (hdraw : ∀ c r, a = .fetchTask c r → 0 ≤ r) (h : Drawn s) : Drawn (poolStep today s a) := by
  rcases poolStep_cases today s a with heq | ⟨form, userId, r, id, d, -, -, hfresh, heq⟩ |
    ⟨id, d, -, hd, heq⟩ | ⟨c, r, yesterday, ha, -, -, heq⟩ |
    ⟨c, y, date, r, id, task, -, hc, hfetched, heq⟩ | ⟨c, y, date, r, -, -, heq⟩ |
    ⟨c, date, id, task, -, hc, heq⟩
  · rw [heq]
    exact h
  · rw [heq]
    refine ⟨?_, h.asked, h.delivered⟩
    intro id' hid' hmem
    rcases (AList.mem_insert _).mp hid' with rfl | hold
    · exact hfresh (Or.inl hmem)
    · exact h.fresh id' hold hmem
  · rw [heq]
    exact h.store hd
  · rw [heq]
    refine h.put (fun y date r' hr' => ?_) fun id hid => (nomatch hid)
    rw [← (FetchRun.asked.inj hr').2.2]
    exact hdraw c r ha
  · rw [heq]
    refine h.put (fun y date r' hr' => (nomatch hr')) fun id' hid' => ?_
    obtain rfl : id = id' := Option.some.inj hid'
    obtain ⟨d, hd, hadmits⟩ := fetchedTask_admitted hfetched
    obtain ⟨-, x, hx, hlt⟩ := fetchTaskQuery_admits.mp hadmits
    refine ⟨d, x, hd, hx, Rat.not_le.mp fun hle => ?_⟩
    exact Rat.not_le.mpr hlt (Rat.le_trans hle (h.asked c y date r hc))
  · rw [heq]
    exact h.put (fun y date r' hr' => (nomatch hr')) fun id hid => (nomatch hid)
  · rw [heq]
    have hput : Drawn (s.put c (.updated date id task)) := by
      refine h.put (fun y date r' hr' => (nomatch hr')) fun id' hid' => ?_
      exact h.delivered c id' (by rw [hc]; exact hid')
    exact hput.date id date

/-- Everything in the pool comes from these posts, and what was handed out has a number. -/
structure OfPosts (posts : List Post) (s : PoolDays C) : Prop where
  tasks : EveryTask (fun _ => ComesFrom posts) s
  drawn : Drawn s.pool

theorem ofPosts_step (posts : List Post) (s : PoolDays C) (a : DayAction C)
    (hallowed : Allowed posts a) (h : OfPosts posts s) : OfPosts posts (dayStep s a) := by
  refine ⟨everyTask_step (fun id d date hd => hd.update) s a ?_ h.tasks, ?_⟩
  · intro form userId r id ha date d hd
    rw [ha] at hallowed
    exact (postTask_comesFrom (p := ⟨form, userId, r, id⟩) hallowed hd).1
  · cases a with
    | newDay => exact h.drawn
    | act b =>
        refine drawn_step s.today s.pool b (fun c r hb => ?_) h.drawn
        rw [hb] at hallowed
        exact hallowed.1

/-- Nobody but its creator has been handed a private task, and no list shows one. -/
structure PrivateStaysPrivate (user : C → Option String) (s : PoolDays C) : Prop where
  handed : ∀ c id d, (s.pool.runs c).delivered? = some id → s.pool.tasks.lookup id = some d →
    IsPrivate d → ∃ u, user c = some u ∧ d "taskCreatorId" = some (.string u)
  listed : ∀ userId, ∀ x ∈ fetchUserPostedTasks userId s.pool.tasks, ¬ IsPrivate x.2

/-- `fetchUserPostedTasks` lists public tasks only. -/
theorem fetchUserPostedTasks_public {userId : Option String} {tasks : Collection}
    {x : String × Document} (hx : x ∈ fetchUserPostedTasks userId tasks) : ¬ IsPrivate x.2 := by
  intro hprivate
  obtain ⟨-, hadmits⟩ := Query.mem_getDocuments (List.mem_filter.mp hx).1
  simp only [Query.admits, fetchUserPostedTasksQuery, List.all_cons, List.all_nil,
    Bool.and_eq_true] at hadmits
  have hpublic := Filter.admits_isEqualTo_boolean.mp hadmits.1.2.1
  rw [hprivate] at hpublic
  cases hpublic

/-- Every private post that goes through with a number above zero is by everybody's own user. -/
def PrivatePostsOwn (user : C → Option String) (posts : List Post) : Prop :=
  ∀ p ∈ posts, ∀ creator, p.creator? = some creator → p.form.privacyStatus = true →
    0 < p.randomValue → ∀ c, user c = some creator

omit [DecidableEq C] in
theorem privateStaysPrivate_of_posts {user : C → Option String} {posts : List Post}
    (hposts : PrivatePostsOwn user posts) (s : PoolDays C) (h : OfPosts posts s) :
    PrivateStaysPrivate user s := by
  refine ⟨?_, fun userId x hx => fetchUserPostedTasks_public hx⟩
  intro c id d hc hd hprivate
  obtain ⟨p, hp, creator, hcreator, hid, hprivacy, hnumber⟩ := h.tasks.stored id d hd
  obtain ⟨d', x, hd', hx, hpos⟩ := h.drawn.delivered c id hc
  obtain rfl : d = d' := Option.some.inj (hd.symm.trans hd')
  obtain rfl : p.randomValue = x := Option.some.inj (hnumber.symm.trans hx)
  rw [hprivate] at hprivacy
  have hflag : p.form.privacyStatus = true := by simpa using hprivacy.symm
  exact ⟨creator, hposts p hp creator hcreator hflag hpos c, hid⟩

/-- A post is stored, and the next day somebody draws zero. -/
def drawnNextDay (p : Post) (c : C) : List (DayAction C) := [
  .act (.postTask p.form p.userId p.randomValue p.id), .act (.storeTask p.id), .newDay,
  .act (.fetchTask c 0), .act (.getDocuments c)]

/-- The only task there is, if the query admits it, is the one it is answered with. -/
theorem fetchedTask_only (id : String) {d : Document} {q : Query} (hlimit : q.limit ≠ some 0)
    (hadmits : q.admits d = true) (hdec : (GoodThingTasks.decode d).isSome = true) :
    ∃ task, fetchedTask (q.getDocuments ((∅ : Collection).insert id d)) = some (id, task) := by
  obtain ⟨x, hhead⟩ := Query.head?_getDocuments hlimit (AList.lookup_insert (a := id) ∅) hadmits
  obtain ⟨hx, -⟩ := Query.mem_getDocuments (List.mem_of_mem_head? hhead)
  rcases lookup_insert_cases hx with ⟨hid, hdoc⟩ | ⟨-, hold⟩
  · obtain ⟨task, htask⟩ := Option.isSome_iff_exists.mp hdec
    refine ⟨task, ?_⟩
    rw [fetchedTask, hhead]
    simp [hid, hdoc, htask]
  · cases hold

/-- The run, state by state, once it is known what the query is answered with. -/
theorem drawnNextDay_run {p : Post} {c : C} {today : Day} {d : Document} {task : GoodThingTasks}
    (hd : postTask p.form p.userId (dateFormatterWithDate today) p.randomValue p.id = some d)
    (hfetched : fetchedTask ((fetchTaskQuery (dateFormatterWithDate today) 0).getDocuments
      ((∅ : Collection).insert p.id d)) = some (p.id, task)) :
    ∃ s : Pool C, s.tasks = (∅ : Collection).insert p.id d ∧
      run dayStep (startDays today) (drawnNextDay p c) =
        ⟨today.next, s.put c (.handed (dateFormatterWithDate today.next) p.id task)⟩ := by
  let tasks : Collection := (∅ : Collection).insert p.id d
  have hposted : dayStep (startDays today : PoolDays C)
      (.act (.postTask p.form p.userId p.randomValue p.id)) =
        ⟨today, ⟨∅, tasks, fun _ => .idle⟩⟩ := by
    simp [dayStep, poolStep, startDays, startPool, hd, tasks]
  have hstored : dayStep (⟨today, ⟨∅, tasks, fun _ => .idle⟩⟩ : PoolDays C)
      (.act (.storeTask p.id)) = ⟨today, ⟨tasks, tasks.erase p.id, fun _ => .idle⟩⟩ := by
    have hlookup : tasks.lookup p.id = some d := AList.lookup_insert _
    simp only [dayStep, poolStep, hlookup]
    rfl
  let asked : Pool C := Pool.put ⟨tasks, tasks.erase p.id, fun _ => .idle⟩ c
    (.asked (dateFormatterWithDate today) (dateFormatterWithDate today.next) 0)
  have hasked : dayStep (⟨today.next, ⟨tasks, tasks.erase p.id, fun _ => .idle⟩⟩ : PoolDays C)
      (.act (.fetchTask c 0)) = ⟨today.next, asked⟩ := by
    simp only [dayStep, poolStep, Day.previous?_next]
    rfl
  have hrun : asked.runs c =
      .asked (dateFormatterWithDate today) (dateFormatterWithDate today.next) 0 := by
    rw [Pool.put_runs, if_pos rfl]
  have hhanded : dayStep (⟨today.next, asked⟩ : PoolDays C) (.act (.getDocuments c)) =
      ⟨today.next, asked.put c (.handed (dateFormatterWithDate today.next) p.id task)⟩ := by
    have hfetched' : fetchedTask ((fetchTaskQuery (dateFormatterWithDate today) 0).getDocuments
        asked.tasks) = some (p.id, task) := hfetched
    simp only [dayStep, poolStep, hrun, hfetched']
  refine ⟨asked, rfl, ?_⟩
  rw [drawnNextDay, run_cons, run_cons, run_cons, run_cons, run_cons, hposted, hstored]
  show run dayStep (dayStep (dayStep ⟨today.next, _⟩ _) _) [] = _
  rw [hasked, hhanded, run_nil]

/-- As there is nothing else to draw, that task is the one they are handed. -/
theorem drawnNextDay_handed {p : Post} {c : C} {today : Day} {d : Document}
    (hd : postTask p.form p.userId (dateFormatterWithDate today) p.randomValue p.id = some d)
    (hpos : 0 < p.randomValue) :
    ((run dayStep (startDays today) (drawnNextDay p c)).pool.runs c).delivered? = some p.id ∧
      (run dayStep (startDays today) (drawnNextDay p c)).pool.tasks.lookup p.id = some d := by
  obtain ⟨hfrom, hdec⟩ := postTask_comesFrom (List.mem_singleton_self p) hd
  have hadmits : (fetchTaskQuery (dateFormatterWithDate today) 0).admits d = true := by
    obtain ⟨p', hp', -, -, -, -, hnumber⟩ := hfrom
    rw [List.mem_singleton.mp hp'] at hnumber
    exact fetchTaskQuery_admits.mpr ⟨lastFetchedTime_postTask hd, p.randomValue, hnumber, hpos⟩
  obtain ⟨task, hfetched⟩ := fetchedTask_only p.id (by simp [fetchTaskQuery]) hadmits hdec
  obtain ⟨s, htasks, hend⟩ := drawnNextDay_run (c := c) hd hfetched
  rw [hend]
  refine ⟨?_, ?_⟩
  · rw [Pool.put_runs, if_pos rfl]
    rfl
  · show s.tasks.lookup p.id = some d
    rw [htasks]
    exact AList.lookup_insert _

/--
Over every order of posts, draws and days, a private task stays with its creator
exactly when every private post with a number above zero is by the user everybody
who fetches is signed in as.
-/
theorem private_tasks_iff (today : Day) (user : C → Option String) (posts : List Post) :
    (∀ as : List (DayAction C), (∀ a ∈ as, Allowed posts a) →
      Always dayStep (PrivateStaysPrivate user) (startDays today) as) ↔
    PrivatePostsOwn user posts := by
  refine ⟨?_, ?_⟩
  · intro h p hp creator hcreator hprivate hpos c
    obtain ⟨d, hd⟩ := postTask_isSome hcreator (dateFormatterWithDate today)
    have hallowed : ∀ a ∈ drawnNextDay p c, Allowed posts a := by
      intro a ha
      simp only [drawnNextDay, List.mem_cons, List.not_mem_nil, or_false] at ha
      rcases ha with rfl | rfl | rfl | rfl | rfl
      · exact hp
      · trivial
      · trivial
      · exact ⟨Rat.le_refl, by decide +kernel⟩
      · trivial
    obtain ⟨hdelivered, hstored⟩ := drawnNextDay_handed (c := c) hd hpos
    obtain ⟨⟨p', hp', creator', hcreator', hid, hprivacy, -⟩, -⟩ :=
      postTask_comesFrom (List.mem_singleton_self p) hd
    obtain rfl : p' = p := List.mem_singleton.mp hp'
    obtain rfl : creator' = creator := Option.some.inj (hcreator'.symm.trans hcreator)
    rw [hprivate] at hprivacy
    obtain ⟨u, hu, hid'⟩ :=
      (h (drawnNextDay p' c) hallowed).last.handed c p'.id d hdelivered hstored hprivacy
    rw [hu]
    rw [hid] at hid'
    exact congrArg some (Value.string.inj (Option.some.inj hid')).symm
  · intro h as has
    refine (always_of_mem (ofPosts_step posts) ?_ has).mono (privateStaysPrivate_of_posts h)
    exact ⟨⟨fun id d hd => (nomatch hd), fun id d hd => (nomatch hd)⟩,
      ⟨fun id hid => (nomatch hid), fun c y date r hc => (nomatch hc), fun c id hc => (nomatch hc)⟩⟩

/-- A task its author posts with `postPrivateTask`. -/
def secret : TaskForm :=
  ⟨some "給自己的信", some "別讓人看到", none, none, true, "2023.10.14 20:15"⟩

def ellasSecret : Post := ⟨secret, some "ella", 1 / 2, "t1"⟩

/-- Ella's private task goes to Hank the day after. -/
theorem private_task_handed_to_stranger :
    ¬ Always dayStep (PrivateStaysPrivate fun _ : Unit => some "hank") (startDays october14)
      (drawnNextDay ellasSecret ()) := by
  intro h
  have hposted : ∃ d, postTask ellasSecret.form ellasSecret.userId (dateFormatterWithDate october14)
      ellasSecret.randomValue ellasSecret.id = some d ∧ IsPrivate d ∧
      d "taskCreatorId" = some (.string "ella") := ⟨_, rfl, rfl, rfl⟩
  obtain ⟨d, hd, hprivate, hcreator⟩ := hposted
  obtain ⟨hdelivered, hstored⟩ := drawnNextDay_handed (c := ()) hd (by decide +kernel)
  obtain ⟨u, hu, hid⟩ := h.last.handed () "t1" d hdelivered hstored hprivate
  obtain rfl : "hank" = u := Option.some.inj hu
  rw [hcreator] at hid
  exact absurd hid (by decide)

end GoodThing
