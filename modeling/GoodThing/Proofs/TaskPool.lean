/-
How tasks are handed out, and how they get lost.

A task is offered on the day after its date, and dating it today is what takes it
off the table.  Between the query that picks it and the update that dates it,
nothing keeps a second query from picking it too; `handed_once_iff` says that this
is the only way for a task to go to two people on one day.

From one day to the next, the date has to keep up.  Only being handed out moves it,
so a task that nobody draws on its day is not offered again; `pool_current_iff`
says exactly which runs never leave a task behind.
-/
import GoodThing.Controller.Task
import Mathlib.Tactic.FinCases

namespace GoodThing

open Firestore Machine Calendar

variable {C : Type} [DecidableEq C]

/-! ### What a step can do -/

/-- Everything a step on one day can do. -/
theorem poolStep_cases (today : Day) (s : Pool C) (a : PoolAction C) :
    poolStep today s a = s ∨
    (∃ form userId r id d, a = .postTask form userId r id ∧
      postTask form userId (dateFormatterWithDate today) r id = some d ∧
      ¬ (id ∈ s.tasks ∨ id ∈ s.posting) ∧
      poolStep today s a = { s with posting := s.posting.insert id d }) ∨
    (∃ id d, a = .storeTask id ∧ s.posting.lookup id = some d ∧
      poolStep today s a =
        { s with tasks := s.tasks.insert id d, posting := s.posting.erase id }) ∨
    (∃ c r yesterday, a = .fetchTask c r ∧ s.runs c = .idle ∧ today.previous? = some yesterday ∧
      poolStep today s a = s.put c
        (.asked (dateFormatterWithDate yesterday) (dateFormatterWithDate today) r)) ∨
    (∃ c y date r id task, a = .getDocuments c ∧ s.runs c = .asked y date r ∧
      fetchedTask ((fetchTaskQuery y r).getDocuments s.tasks) = some (id, task) ∧
      poolStep today s a = s.put c (.handed date id task)) ∨
    (∃ c y date r, s.runs c = .asked y date r ∧
      (a = .getDocumentsFails c ∨
        a = .getDocuments c ∧ fetchedTask ((fetchTaskQuery y r).getDocuments s.tasks) = none) ∧
      poolStep today s a = s.put c .ended) ∨
    (∃ c date id task, a = .updateData c ∧ s.runs c = .handed date id task ∧
      poolStep today s a =
        { s.put c (.updated date id task) with tasks := dated s.tasks id date }) := by
  cases a with
  | postTask form userId r id =>
      simp only [poolStep]
      split
      · rename_i d hd
        by_cases hid : id ∈ s.tasks ∨ id ∈ s.posting
        · rw [if_pos hid]
          exact Or.inl rfl
        · rw [if_neg hid]
          exact Or.inr (Or.inl ⟨form, userId, r, id, d, rfl, hd, hid, rfl⟩)
      · exact Or.inl rfl
  | storeTask id =>
      simp only [poolStep]
      split
      · rename_i d hd
        exact Or.inr (Or.inr (Or.inl ⟨id, d, rfl, hd, rfl⟩))
      · exact Or.inl rfl
  | fetchTask c r =>
      simp only [poolStep]
      split
      · rename_i yesterday hc hy
        exact Or.inr (Or.inr (Or.inr (Or.inl ⟨c, r, yesterday, rfl, hc, hy, rfl⟩)))
      · exact Or.inl rfl
  | getDocuments c =>
      simp only [poolStep]
      split
      · rename_i y date r hc
        split
        · rename_i id task hfetched
          exact Or.inr (Or.inr (Or.inr (Or.inr (Or.inl
            ⟨c, y, date, r, id, task, rfl, hc, hfetched, rfl⟩))))
        · rename_i hnone
          exact Or.inr (Or.inr (Or.inr (Or.inr (Or.inr (Or.inl
            ⟨c, y, date, r, hc, Or.inr ⟨rfl, hnone⟩, rfl⟩)))))
      · exact Or.inl rfl
  | getDocumentsFails c =>
      simp only [poolStep]
      split
      · rename_i y date r hc
        exact Or.inr (Or.inr (Or.inr (Or.inr (Or.inr (Or.inl
          ⟨c, y, date, r, hc, Or.inl rfl, rfl⟩)))))
      · exact Or.inl rfl
  | updateData c =>
      simp only [poolStep]
      split
      · rename_i date id task hc
        exact Or.inr (Or.inr (Or.inr (Or.inr (Or.inr (Or.inr ⟨c, date, id, task, rfl, hc, rfl⟩)))))
      · exact Or.inl rfl

theorem Pool.put_runs (s : Pool C) (c c' : C) (r : FetchRun) :
    (s.put c r).runs c' = if c' = c then r else s.runs c' :=
  Function.update_apply s.runs c r c'

/-- What `postTask` stores: a record as its struct reads it, and three fields besides. -/
theorem postTask_stores {form : TaskForm} {userId : Option String} {date id : String} {r : Rat}
    {d : Document} (h : postTask form userId date r id = some d) :
    ∃ title content creator, filled form.taskTitle = some title ∧
      filled form.taskContent = some content ∧ userId = some creator ∧
      taskCodec.Stores ⟨id, title, content, some (form.imageURL.getD ""), form.recordingURL,
        creator, form.time⟩ d ∧
      d "privacyStatus" = some (.boolean form.privacyStatus) ∧
      d "randomSelectionValue" = some (.double r) ∧
      d "lastFetchedTime" = some (.string date) := by
  simp only [postTask, Option.bind_eq_bind, Option.bind_eq_some_iff] at h
  obtain ⟨title, htitle, content, hcontent, creator, hcreator, hd⟩ := h
  refine ⟨title, content, creator, htitle, hcontent, hcreator, ?_⟩
  -- The recording is stored only if there is one.
  split at hd
  · rename_i recordURL hrecord
    rw [← Option.some.inj hd, hrecord]
    refine ⟨?_, rfl, rfl, rfl⟩
    intro k hk
    fin_cases hk <;> rfl
  · rename_i hrecord
    rw [← Option.some.inj hd, hrecord]
    refine ⟨?_, rfl, rfl, rfl⟩
    intro k hk
    fin_cases hk <;> rfl

/-- The date a task carries. -/
def lastFetchedTime (d : Document) : Option String := d.string? "lastFetchedTime"

/-- A posted task carries the date of its post. -/
theorem lastFetchedTime_postTask {form : TaskForm} {userId : Option String} {date id : String}
    {r : Rat} {d : Document} (h : postTask form userId date r id = some d) :
    lastFetchedTime d = some date := by
  obtain ⟨_, _, _, -, -, -, -, -, -, hdate⟩ := postTask_stores h
  rw [lastFetchedTime, Document.string?, hdate]
  rfl

/-- A task that is handed out is stored, and its query admits it. -/
theorem fetchedTask_admitted {tasks : Collection} {q : Query} {id : String}
    {task : GoodThingTasks} (h : fetchedTask (q.getDocuments tasks) = some (id, task)) :
    ∃ d, tasks.lookup id = some d ∧ q.admits d = true := by
  unfold fetchedTask at h
  split at h
  · rename_i id' d hhead
    obtain ⟨task', -, heq⟩ := Option.map_eq_some_iff.mp h
    obtain ⟨rfl, -⟩ := Prod.mk.inj heq
    exact ⟨d, Query.mem_getDocuments (List.mem_of_mem_head? hhead)⟩
  · cases h

/-- It carries the date its query asked for. -/
theorem fetchedTask_found {tasks : Collection} {y id : String} {r : Rat} {task : GoodThingTasks}
    (h : fetchedTask ((fetchTaskQuery y r).getDocuments tasks) = some (id, task)) :
    ∃ d, tasks.lookup id = some d ∧ lastFetchedTime d = some y := by
  obtain ⟨d, hstored, hadmits⟩ := fetchedTask_admitted h
  simp only [Query.admits, fetchTaskQuery, List.all_cons, List.all_nil, Bool.and_eq_true]
    at hadmits
  have hdate := Filter.admits_isEqualTo_string.mp hadmits.1.1
  exact ⟨d, hstored, by simp [lastFetchedTime, Document.string?, hdate, Value.asString]⟩

theorem lookup_dated_eq (tasks : Collection) (id date id' : String) :
    (dated tasks id date).lookup id' =
      if id' = id then (tasks.lookup id).map (·.update [("lastFetchedTime", .string date)])
      else tasks.lookup id' := by
  unfold dated
  by_cases hid : id' = id
  · rw [if_pos hid, hid]
    split
    · rename_i d hd
      rw [AList.lookup_insert, hd]
      rfl
    · rename_i hnone
      rw [hnone]
      rfl
  · rw [if_neg hid]
    split
    · rw [AList.lookup_insert_ne hid]
    · rfl

/-- Dating one task. -/
theorem lookup_dated {tasks : Collection} {id date id' : String} {d : Document}
    (h : (dated tasks id date).lookup id' = some d) :
    (id' = id ∧ lastFetchedTime d = some date) ∨ (id' ≠ id ∧ tasks.lookup id' = some d) := by
  rw [lookup_dated_eq] at h
  by_cases hid : id' = id
  · rw [if_pos hid] at h
    obtain ⟨d', -, rfl⟩ := Option.map_eq_some_iff.mp h
    exact Or.inl ⟨hid, rfl⟩
  · rw [if_neg hid] at h
    exact Or.inr ⟨hid, h⟩

/-- Storing one task. -/
theorem lookup_insert_cases {tasks : Collection} {id id' : String} {d d' : Document}
    (h : (tasks.insert id d).lookup id' = some d') :
    (id' = id ∧ d' = d) ∨ (id' ≠ id ∧ tasks.lookup id' = some d') := by
  by_cases hid : id' = id
  · subst hid
    rw [AList.lookup_insert] at h
    exact Or.inl ⟨rfl, (Option.some.inj h).symm⟩
  · rw [AList.lookup_insert_ne hid] at h
    exact Or.inr ⟨hid, h⟩

/-! ### One task, one person, on one day -/

/-- No document has been handed out by two runs. -/
def HandedOnce (s : Pool C) : Prop :=
  ∀ c c' id, (s.runs c).delivered? = some id → (s.runs c').delivered? = some id → c = c'

/-- No query is answered with a task that another run has been handed and not dated yet. -/
def NotInHands (s : Pool C) (a : PoolAction C) : Prop :=
  ∀ c y date r id task, a = .getDocuments c → s.runs c = .asked y date r →
    fetchedTask ((fetchTaskQuery y r).getDocuments s.tasks) = some (id, task) →
    ∀ c' date' task', s.runs c' ≠ .handed date' id task'

/-- The task under this id, if there is one, is dated today. -/
def DatedOn (today : Day) (tasks : Collection) (id : String) : Prop :=
  ∀ d, tasks.lookup id = some d → lastFetchedTime d = some (dateFormatterWithDate today)

theorem DatedOn.insert {today : Day} {tasks : Collection} {id id' : String} {d : Document}
    (hd : lastFetchedTime d = some (dateFormatterWithDate today)) (h : DatedOn today tasks id') :
    DatedOn today (tasks.insert id d) id' := by
  intro d' hd'
  rcases lookup_insert_cases hd' with ⟨-, rfl⟩ | ⟨-, hold⟩
  · exact hd
  · exact h d' hold

theorem DatedOn.erase {today : Day} {tasks : Collection} {id id' : String}
    (h : DatedOn today tasks id') : DatedOn today (tasks.erase id) id' := by
  intro d hd
  by_cases hid : id' = id
  · rw [hid, AList.lookup_erase] at hd
    cases hd
  · rw [AList.lookup_erase_ne hid] at hd
    exact h d hd

/-- Where a run of this day can stand: its dates are right, and a task it has dated still is. -/
def InOrder (today : Day) (tasks : Collection) : FetchRun → Prop
  | .asked y date _ => date = dateFormatterWithDate today ∧
      ∃ yesterday, today.previous? = some yesterday ∧ y = dateFormatterWithDate yesterday
  | .handed date _ _ => date = dateFormatterWithDate today
  | .updated _ id _ => DatedOn today tasks id
  | .idle | .ended => True

theorem InOrder.of_tasks {today : Day} {tasks tasks' : Collection} {r : FetchRun}
    (h : InOrder today tasks r) (htasks : ∀ id, DatedOn today tasks id → DatedOn today tasks' id) :
    InOrder today tasks' r := by
  cases r with
  | updated date id task => exact htasks id h
  | _ => exact h

/-- Everything under way is of one day. -/
structure SameDay (today : Day) (s : Pool C) : Prop where
  posting : ∀ id, DatedOn today s.posting id
  runs : ∀ c, InOrder today s.tasks (s.runs c)

theorem SameDay.put {today : Day} {s : Pool C} (h : SameDay today s) {c : C} {r : FetchRun}
    (hr : InOrder today s.tasks r) : SameDay today (s.put c r) := by
  refine ⟨h.posting, ?_⟩
  intro c'
  rw [Pool.put_runs]
  by_cases hc : c' = c
  · rw [if_pos hc]
    exact hr
  · rw [if_neg hc]
    exact h.runs c'

theorem sameDay_step (today : Day) (s : Pool C) (a : PoolAction C) (h : SameDay today s) :
    SameDay today (poolStep today s a) := by
  rcases poolStep_cases today s a with heq | ⟨form, userId, r, id, d, -, hpost, -, heq⟩ |
    ⟨id, d, -, hd, heq⟩ | ⟨c, r, yesterday, -, -, hy, heq⟩ |
    ⟨c, y, date, r, id, task, -, hc, -, heq⟩ |
    ⟨c, y, date, r, -, -, heq⟩ | ⟨c, date, id, task, -, hc, heq⟩
  · rw [heq]
    exact h
  · rw [heq]
    exact ⟨fun id' => (h.posting id').insert (lastFetchedTime_postTask hpost), h.runs⟩
  · rw [heq]
    refine ⟨fun id' => (h.posting id').erase, fun c => (h.runs c).of_tasks fun id' hid' => ?_⟩
    exact hid'.insert (h.posting id d hd)
  · rw [heq]
    exact h.put ⟨rfl, yesterday, hy, rfl⟩
  · rw [heq]
    have hasked := h.runs c
    rw [hc] at hasked
    exact h.put hasked.1
  · rw [heq]
    exact h.put trivial
  · rw [heq]
    have htoday := h.runs c
    rw [hc] at htoday
    obtain rfl : date = dateFormatterWithDate today := htoday
    -- Dating a task today takes no date of today away.
    have hdated : ∀ id', DatedOn today s.tasks id' →
        DatedOn today (dated s.tasks id (dateFormatterWithDate today)) id' := by
      intro id' hid' d hd
      rcases lookup_dated hd with ⟨-, hdate⟩ | ⟨-, hold⟩
      · exact hdate
      · exact hid' d hold
    refine ⟨h.posting, ?_⟩
    intro c'
    show InOrder today (dated s.tasks id _) ((s.put c (.updated _ id task)).runs c')
    rw [Pool.put_runs]
    by_cases hcc : c' = c
    · rw [if_pos hcc]
      intro d hd
      rcases lookup_dated hd with ⟨-, hdate⟩ | ⟨hne, -⟩
      · exact hdate
      · exact absurd rfl hne
    · rw [if_neg hcc]
      exact (h.runs c').of_tasks hdated

/-- A step that does not answer a query with a task hands out nothing new. -/
theorem delivered?_step {today : Day} {s : Pool C} {a : PoolAction C}
    (h : ¬ ∃ c y date r id task, a = .getDocuments c ∧ s.runs c = .asked y date r ∧
      fetchedTask ((fetchTaskQuery y r).getDocuments s.tasks) = some (id, task)) (c : C) :
    ((poolStep today s a).runs c).delivered? = (s.runs c).delivered? := by
  have hput : ∀ (t : Pool C) c₀ r, (∀ c', t.runs c' = (s.put c₀ r).runs c') →
      r.delivered? = (s.runs c₀).delivered? →
      (t.runs c).delivered? = (s.runs c).delivered? := by
    intro t c₀ r ht hr
    rw [ht, Pool.put_runs]
    by_cases hc : c = c₀
    · rw [if_pos hc, hr, hc]
    · rw [if_neg hc]
  rcases poolStep_cases today s a with heq | ⟨_, _, _, _, _, -, -, -, heq⟩ | ⟨_, _, -, -, heq⟩ |
    ⟨c₀, r, y, -, hc₀, -, heq⟩ | ⟨c₀, y, date, r, id, task, ha, hc₀, hfetched, -⟩ |
    ⟨c₀, y, date, r, hc₀, -, heq⟩ |
    ⟨c₀, date, id, task, -, hc₀, heq⟩
  · rw [heq]
  · rw [heq]
  · rw [heq]
  · exact hput _ c₀ _ (fun c' => by rw [heq]) (by rw [hc₀]; rfl)
  · exact absurd ⟨c₀, y, date, r, id, task, ha, hc₀, hfetched⟩ h
  · exact hput _ c₀ _ (fun c' => by rw [heq]) (by rw [hc₀]; rfl)
  · exact hput _ c₀ (.updated date id task) (fun c' => by rw [heq]) (by rw [hc₀]; rfl)

omit [DecidableEq C] in
/-- A document on offer has not been dated today. -/
theorem SameDay.not_updated {today : Day} {s : Pool C} (h : SameDay today s) {c c' : C}
    {y date id date' : String} {r : Rat} {task task' : GoodThingTasks}
    (hc : s.runs c = .asked y date r)
    (hfetched : fetchedTask ((fetchTaskQuery y r).getDocuments s.tasks) = some (id, task)) :
    s.runs c' ≠ .updated date' id task' := by
  intro hc'
  obtain ⟨d, hd, hdate⟩ := fetchedTask_found hfetched
  have hasked := h.runs c
  rw [hc] at hasked
  obtain ⟨-, yesterday, hprev, rfl⟩ := hasked
  have hupdated := h.runs c'
  rw [hc'] at hupdated
  have hsame : yesterday.format = today.format :=
    Option.some.inj (hdate.symm.trans (hupdated d hd))
  have hnext := Day.next_of_previous? hprev
  rw [Day.format_injective hsame] at hnext
  exact Day.next_ne today hnext

omit [DecidableEq C] in
/-- Whoever has been handed a document on offer has not dated it yet. -/
theorem SameDay.nobody_iff {today : Day} {s : Pool C} (h : SameDay today s) {c : C}
    {y date id : String} {r : Rat} {task : GoodThingTasks} (hc : s.runs c = .asked y date r)
    (hfetched : fetchedTask ((fetchTaskQuery y r).getDocuments s.tasks) = some (id, task)) :
    (∀ c', (s.runs c').delivered? ≠ some id) ↔
      ∀ c' date' task', s.runs c' ≠ .handed date' id task' := by
  refine ⟨fun hnobody c' date' task' hrun => hnobody c' (by rw [hrun]; rfl), ?_⟩
  intro hfree c' hc'
  cases hrun : s.runs c' with
  | handed date' id' task' =>
      rw [hrun] at hc'
      obtain rfl : id' = id := Option.some.inj hc'
      exact hfree c' date' task' hrun
  | updated date' id' task' =>
      rw [hrun] at hc'
      obtain rfl : id' = id := Option.some.inj hc'
      exact h.not_updated hc hfetched hrun
  | _ => rw [hrun] at hc'; cases hc'

/-- Handing out one more document leaves each with one run if nobody has this one. -/
theorem handedOnce_put_iff {s : Pool C} {c : C} {date id : String} {task : GoodThingTasks}
    (hc : (s.runs c).delivered? = none) (honce : HandedOnce s) :
    HandedOnce (s.put c (.handed date id task)) ↔ ∀ c', (s.runs c').delivered? ≠ some id := by
  have hself : ((s.put c (.handed date id task)).runs c).delivered? = some id := by
    rw [Pool.put_runs, if_pos rfl]
    rfl
  have hother : ∀ c', c' ≠ c →
      ((s.put c (.handed date id task)).runs c').delivered? = (s.runs c').delivered? := by
    intro c' hne
    rw [Pool.put_runs, if_neg hne]
  refine ⟨?_, ?_⟩
  · intro hput c' hc'
    have hne : c' ≠ c := by
      intro heq
      rw [heq, hc] at hc'
      cases hc'
    exact hne (hput c' c id (by rw [hother c' hne, hc']) hself)
  · intro hnobody c₁ c₂ id' h₁ h₂
    by_cases hc₁ : c₁ = c
    · by_cases hc₂ : c₂ = c
      · rw [hc₁, hc₂]
      · rw [hc₁, hself] at h₁
        rw [hother c₂ hc₂, ← h₁] at h₂
        exact absurd h₂ (hnobody c₂)
    · by_cases hc₂ : c₂ = c
      · rw [hc₂, hself] at h₂
        rw [hother c₁ hc₁, ← h₂] at h₁
        exact absurd h₁ (hnobody c₁)
      · rw [hother c₁ hc₁] at h₁
        rw [hother c₂ hc₂] at h₂
        exact honce c₁ c₂ id' h₁ h₂

/-- Whether a step keeps every task with one person. -/
theorem handedOnce_step_iff (today : Day) (s : Pool C) (a : PoolAction C) (h : SameDay today s)
    (honce : HandedOnce s) : HandedOnce (poolStep today s a) ↔ NotInHands s a := by
  by_cases hanswer : ∃ c y date r id task, a = .getDocuments c ∧ s.runs c = .asked y date r ∧
      fetchedTask ((fetchTaskQuery y r).getDocuments s.tasks) = some (id, task)
  · obtain ⟨c, y, date, r, id, task, rfl, hc, hfetched⟩ := hanswer
    have heq : poolStep today s (.getDocuments c) = s.put c (.handed date id task) := by
      simp [poolStep, hc, hfetched]
    rw [heq, handedOnce_put_iff (by rw [hc]; rfl) honce, h.nobody_iff hc hfetched]
    refine ⟨?_, fun hguard => hguard c y date r id task rfl hc hfetched⟩
    intro hfree c₀ y' date' r' id' task' ha hc₀ hfetched'
    obtain rfl : c = c₀ := PoolAction.getDocuments.inj ha
    obtain ⟨rfl, rfl, rfl⟩ := FetchRun.asked.inj (hc.symm.trans hc₀)
    obtain ⟨rfl, rfl⟩ := Prod.mk.inj (Option.some.inj (hfetched.symm.trans hfetched'))
    exact hfree
  · -- Nothing is handed out, and the guard asks for nothing.
    have hvacuous : NotInHands s a := by
      intro c y date r id task ha hc hfetched
      exact absurd ⟨c, y, date, r, id, task, ha, hc, hfetched⟩ hanswer
    refine ⟨fun _ => hvacuous, ?_⟩
    intro _ c c' id hc hc'
    rw [delivered?_step hanswer] at hc hc'
    exact honce c c' id hc hc'

/--
On one day no task goes to two people exactly when no query is answered with a task
that somebody has been handed and whose date is not updated yet.
-/
theorem handed_once_iff (today : Day) (tasks : Collection) (as : List (PoolAction C)) :
    Always (poolStep today) HandedOnce (startPool tasks) as ↔
      Guarded (poolStep today) NotInHands (startPool tasks) as := by
  refine always_iff_guarded (J := SameDay today) (sameDay_step today) (handedOnce_step_iff today)
    as ⟨?_, fun c => trivial⟩ ?_
  · intro id d hd
    cases hd
  · intro c c' id hc
    cases hc

/-- A Saturday. -/
def october14 : Day := ⟨2023, 10, 14, by decide, by decide, by decide, by decide, by decide⟩

/-- A task as its author posts it. -/
def greeting : TaskForm :=
  ⟨some "打招呼", some "跟鄰居說早安", none, none, false, "2023.10.13 20:15"⟩

/-- Two people open the app at the same time and get the one task posted the day before. -/
theorem one_task_two_people :
    ∃ d, postTask greeting (some "ella") "2023.10.13" (1 / 2) "t1" = some d ∧
      ¬ Always (poolStep october14) HandedOnce (startPool ((∅ : Collection).insert "t1" d))
        [.fetchTask true 0, .fetchTask false (1 / 4), .getDocuments true, .getDocuments false,
          .updateData true, .updateData false] := by
  refine ⟨_, rfl, ?_⟩
  intro h
  have hsame := h.last true false "t1" (by decide +kernel) (by decide +kernel)
  exact absurd hsame (by decide)

/-! ### Day after day -/

/-- The date of this day or of the one before. -/
def IsRecent (today : Day) (date : String) : Prop :=
  date = dateFormatterWithDate today ∨
    ∃ yesterday, today.previous? = some yesterday ∧ date = dateFormatterWithDate yesterday

/-- Every task is dated today or yesterday. -/
def PoolCurrent (s : PoolDays C) : Prop :=
  ∀ id d, s.pool.tasks.lookup id = some d →
    ∃ date, lastFetchedTime d = some date ∧ IsRecent s.today date

/-- A day ends only when every task is dated that day. -/
def AllFetched (s : PoolDays C) : Prop := ∀ id, DatedOn s.today s.pool.tasks id

/--
The day ends when every task is dated today, and what arrives late is a day old at
most: the task of a post, and the date of an update.
-/
def KeepsUp (s : PoolDays C) : DayAction C → Prop
  | .newDay => AllFetched s
  | .act (.storeTask id) => ∀ d, s.pool.posting.lookup id = some d →
      ∃ date, lastFetchedTime d = some date ∧ IsRecent s.today date
  | .act (.updateData c) => ∀ date id task, s.pool.runs c = .handed date id task →
      id ∈ s.pool.tasks → IsRecent s.today date
  | _ => True

/-- Once the next day begins, today is yesterday, and yesterday is gone. -/
theorem isRecent_next {today : Day} {date : String} (h : IsRecent today date) :
    IsRecent today.next date ↔ date = dateFormatterWithDate today := by
  unfold IsRecent
  rw [Day.previous?_next]
  refine ⟨?_, fun heq => Or.inr ⟨today, rfl, heq⟩⟩
  intro hnext
  rcases hnext with hnext | ⟨yesterday, hy, heq⟩
  · rcases h with heq | ⟨yesterday, hprev, heq⟩
    · exact heq
    · have hsame : yesterday = today.next := Day.format_injective (heq.symm.trans hnext)
      have hnext' := Day.next_of_previous? hprev
      rw [← hnext'] at hsame
      exact absurd hsame.symm (Day.next_next_ne yesterday)
  · rw [Option.some.inj hy]
    exact heq

/-- Only a post that is stored and an update that is applied touch the collection. -/
theorem tasks_poolStep {today : Day} {s : Pool C} {a : PoolAction C}
    (hstore : ∀ id, a ≠ .storeTask id) (hupdate : ∀ c, a ≠ .updateData c) :
    (poolStep today s a).tasks = s.tasks := by
  rcases poolStep_cases today s a with heq | ⟨_, _, _, _, _, -, -, -, heq⟩ | ⟨id, _, ha, -, -⟩ |
    ⟨_, _, _, -, -, -, heq⟩ | ⟨_, _, _, _, _, _, -, -, -, heq⟩ | ⟨_, _, _, _, -, -, heq⟩ |
    ⟨c, _, _, _, ha, -, -⟩
  · rw [heq]
  · rw [heq]
  · exact absurd ha (hstore id)
  · rw [heq]
    rfl
  · rw [heq]
    rfl
  · rw [heq]
    rfl
  · exact absurd ha (hupdate c)

theorem poolCurrent_newDay_iff {s : PoolDays C} (h : PoolCurrent s) :
    PoolCurrent (dayStep s .newDay) ↔ AllFetched s := by
  refine ⟨?_, ?_⟩
  · intro hnext id d hd
    obtain ⟨date, hdate, hrecent⟩ := h id d hd
    obtain ⟨date', hdate', hrecent'⟩ := hnext id d hd
    obtain rfl : date = date' := Option.some.inj (hdate.symm.trans hdate')
    rw [hdate, (isRecent_next hrecent).mp hrecent']
  · intro hall id d hd
    exact ⟨_, hall id d hd, Or.inr ⟨s.today, Day.previous?_next s.today, rfl⟩⟩

theorem poolCurrent_storeTask_iff {s : PoolDays C} (h : PoolCurrent s) (id : String) :
    PoolCurrent (dayStep s (.act (.storeTask id))) ↔ KeepsUp s (.act (.storeTask id)) := by
  cases hd : s.pool.posting.lookup id with
  | none =>
      have heq : dayStep s (.act (.storeTask id)) = s := by simp [dayStep, poolStep, hd]
      rw [heq]
      refine ⟨?_, fun _ => h⟩
      intro _ d hd'
      rw [hd] at hd'
      cases hd'
  | some d =>
      have htasks : (dayStep s (.act (.storeTask id))).pool.tasks = s.pool.tasks.insert id d := by
        simp [dayStep, poolStep, hd]
      refine ⟨?_, ?_⟩
      · intro hcurrent d' hd'
        obtain rfl : d = d' := Option.some.inj (hd.symm.trans hd')
        exact hcurrent id d (by rw [htasks, AList.lookup_insert])
      · intro hlate id' d' hd'
        rw [htasks] at hd'
        rcases lookup_insert_cases hd' with ⟨-, rfl⟩ | ⟨-, hold⟩
        · exact hlate d' hd
        · exact h id' d' hold

theorem poolCurrent_updateData_iff {s : PoolDays C} (h : PoolCurrent s) (c : C) :
    PoolCurrent (dayStep s (.act (.updateData c))) ↔ KeepsUp s (.act (.updateData c)) := by
  by_cases hc : ∃ date id task, s.pool.runs c = .handed date id task
  · obtain ⟨date, id, task, hc⟩ := hc
    have htasks : (dayStep s (.act (.updateData c))).pool.tasks = dated s.pool.tasks id date := by
      simp [dayStep, poolStep, hc]
    refine ⟨?_, ?_⟩
    · intro hcurrent date' id' task' hc' hid
      obtain ⟨rfl, rfl, rfl⟩ := FetchRun.handed.inj (hc.symm.trans hc')
      obtain ⟨d, hd⟩ := Option.isSome_iff_exists.mp (AList.lookup_isSome.mpr hid)
      have hdated : (dated s.pool.tasks id date).lookup id
          = some (d.update [("lastFetchedTime", .string date)]) := by
        simp [dated, hd]
      obtain ⟨date', hdate', hrecent⟩ := hcurrent id _ (by rw [htasks, hdated])
      obtain rfl : date = date' := Option.some.inj hdate'
      exact hrecent
    · intro hlate id' d' hd'
      rw [htasks] at hd'
      rcases lookup_dated hd' with ⟨hid, hdate⟩ | ⟨-, hold⟩
      · refine ⟨date, hdate, hlate date id task hc ?_⟩
        by_contra hmissing
        rw [dated, AList.lookup_eq_none.mpr hmissing, hid, AList.lookup_eq_none.mpr hmissing] at hd'
        cases hd'
      · exact h id' d' hold
  · have heq : dayStep s (.act (.updateData c)) = s := by
      simp only [dayStep, poolStep]
      split
      · rename_i date id task hrun
        exact absurd ⟨date, id, task, hrun⟩ hc
      · rfl
    rw [heq]
    exact ⟨fun _ date id task hrun => absurd ⟨date, id, task, hrun⟩ hc, fun _ => h⟩

/-- Whether a step leaves no task behind. -/
theorem poolCurrent_step_iff (s : PoolDays C) (a : DayAction C) (h : PoolCurrent s) :
    PoolCurrent (dayStep s a) ↔ KeepsUp s a := by
  -- The other steps leave the day and the collection alone.
  have quiet : ∀ b : PoolAction C, (∀ id, b ≠ .storeTask id) → (∀ c, b ≠ .updateData c) →
      PoolCurrent (dayStep s (.act b)) := by
    intro b hstore hupdate id d hd
    have htasks : (dayStep s (.act b)).pool.tasks = s.pool.tasks := tasks_poolStep hstore hupdate
    rw [htasks] at hd
    exact h id d hd
  cases a with
  | newDay => exact poolCurrent_newDay_iff h
  | act b =>
      cases b with
      | storeTask id => exact poolCurrent_storeTask_iff h id
      | updateData c => exact poolCurrent_updateData_iff h c
      | postTask form userId r id =>
          exact ⟨fun _ => trivial, fun _ => quiet _ (by simp) (by simp)⟩
      | fetchTask c r => exact ⟨fun _ => trivial, fun _ => quiet _ (by simp) (by simp)⟩
      | getDocuments c => exact ⟨fun _ => trivial, fun _ => quiet _ (by simp) (by simp)⟩
      | getDocumentsFails c => exact ⟨fun _ => trivial, fun _ => quiet _ (by simp) (by simp)⟩

/--
Every task is dated today or yesterday, in every state of a run, exactly when no
day ends before every task is dated that day, and nothing arrives later than the
day after it was sent.
-/
theorem pool_current_iff (today : Day) (as : List (DayAction C)) :
    Always dayStep PoolCurrent (startDays today) as ↔
      Guarded dayStep KeepsUp (startDays today) as := by
  refine always_iff_guarded_of_step poolCurrent_step_iff as ?_
  intro id d hd
  cases hd

/-- A task nobody draws the next day, a Sunday, is out on Monday. -/
theorem undrawn_task_drops_out :
    ¬ Always dayStep PoolCurrent (startDays october14 : PoolDays Bool)
      [.act (.postTask greeting (some "ella") (1 / 2) "t1"), .act (.storeTask "t1"),
        .newDay, .newDay] := by
  intro h
  obtain ⟨date, hdate, hrecent⟩ := h.last "t1" _ rfl
  obtain rfl : october14.format = date := Option.some.inj hdate
  rcases hrecent with hsame | ⟨yesterday, hy, hsame⟩
  · have heq : october14 = october14.next.next := Day.format_injective hsame
    exact Day.next_next_ne october14 heq.symm
  · have heq : october14 = yesterday := Day.format_injective hsame
    have hnext := Day.next_of_previous? hy
    rw [← heq] at hnext
    exact Day.next_ne october14.next hnext.symm

end GoodThing
