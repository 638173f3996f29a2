/-
What becomes of the writes.

A `Ledger` is all that is known of them: the mutation table, what has been written, committed,
refused, blamed and answered, and who has been told.  `Tidy` is what holds of it at any time, and
every lemma here is one thing that can happen to it.

A batch may be committed more than once, and much later than the client has given up the
stream it was sent over.  `Follows` says what is left of order then: whenever the backend takes
a batch, all that its user has written before has had its turn.
-/
import GoodThing.Firebase.WriteStream

namespace Firebase

variable {U M : Type} [LinearOrder U]

namespace MutationTable

variable {table : MutationTable U M} {u : U} {batch : MutationBatch U M}

theorem mem_queue {b : MutationBatch U M} : b ∈ table.queue u ↔ b ∈ table ∧ b.user = u := by
  show b ∈ (table.filter _) ↔ _
  rw [Keyed.Set.mem_filter, decide_eq_true_eq]

/-- The queue of a user is in the order of the batch ids. -/
theorem sorted_queue (table : MutationTable U M) (u : U) :
    (table.queue u).Pairwise fun a b => a.batchId < b.batchId := by
  refine (table.filter fun b => b.user = u).sorted.imp_of_mem ?_
  intro a b ha hb hlt
  have hau := (mem_queue.mp ha).2
  have hbu := (mem_queue.mp hb).2
  rcases Prod.Lex.toLex_lt_toLex.mp hlt with huser | ⟨-, hid⟩
  · rw [hau, hbu] at huser
    exact absurd huser (lt_irrefl u)
  · exact hid

theorem queue_insert_self (table : MutationTable U M) (batch : MutationBatch U M)
    (h : ∀ b ∈ table.queue batch.user, b.batchId < batch.batchId) :
    queue (table.insert batch) batch.user = table.queue batch.user ++ [batch] := by
  unfold queue
  rw [Keyed.Set.filter_insert_of_pos table (decide_eq_true rfl)]
  refine Keyed.Set.list_insert_last ?_ ?_
  · intro e he
    have huser := (mem_queue.mp he).2
    exact Prod.Lex.toLex_lt_toLex.mpr (Or.inr ⟨huser, h e he⟩)
  · intro e he hkey
    exact absurd (congrArg Prod.snd hkey) (ne_of_lt (h e he))

theorem queue_insert_of_ne (table : MutationTable U M) {batch : MutationBatch U M} {u : U}
    (h : u ≠ batch.user) :
    queue (table.insert batch) u = table.queue u := by
  unfold queue
  rw [Keyed.Set.filter_insert_of_neg table]
  intro e hkey
  rw [decide_eq_false_iff_not]
  intro heq
  exact h (heq.symm.trans (congrArg Prod.fst hkey))

theorem queue_erase_head {rest : List (MutationBatch U M)} (h : table.queue u = batch :: rest) :
    queue (table.erase (u, batch.batchId)) u = rest := by
  have huser : batch.user = u := by
    have hmem : batch ∈ table.queue u := by
      rw [h]
      exact List.mem_cons_self
    exact (mem_queue.mp hmem).2
  have hfirst : (table.filter fun b => b.user = u).first? = some batch := by
    show (table.queue u).head? = some batch
    rw [h]
    rfl
  unfold queue
  rw [Keyed.Set.filter_erase, show (u, batch.batchId) = mutationOrder.key batch by rw [← huser]; rfl,
    Keyed.Set.erase_first hfirst]
  show (table.queue u).drop 1 = rest
  rw [h]
  rfl

theorem queue_erase_of_ne {v : U} (h : v ≠ u) (id : Int) :
    queue (table.erase (u, id)) v = table.queue v := by
  unfold queue
  rw [Keyed.Set.filter_erase]
  refine congrArg Keyed.Set.list (Keyed.Set.ext fun e => ?_)
  rw [Keyed.Set.mem_erase]
  refine ⟨fun he => he.1, fun he => ⟨he, ?_⟩⟩
  intro hkey
  have huser : e.user = v := (mem_queue.mp he).2
  exact h (huser.symm.trans (congrArg Prod.fst hkey))

omit [LinearOrder U] in
theorem find?_after {front rest : List (MutationBatch U M)} {last : Int}
    (hfront : ∀ b ∈ front, b.batchId ≤ last) (hrest : ∀ b ∈ rest, last < b.batchId) :
    (front ++ rest).find? (fun b => last + 1 ≤ b.batchId) = rest.head? := by
  have hnone : front.find? (fun b => last + 1 ≤ b.batchId) = none := by
    rw [List.find?_eq_none]
    intro b hb
    have hle := hfront b hb
    simp only [decide_eq_true_eq]
    omega
  rw [List.find?_append, hnone, Option.none_or]
  cases rest with
  | nil => rfl
  | cons b rest =>
      have hlt := hrest b List.mem_cons_self
      exact List.find?_cons_of_pos (decide_eq_true (by omega))

/-- The next batch after the front of a queue is the first of the rest. -/
theorem next_eq {front rest : List (MutationBatch U M)} (h : table.queue u = front ++ rest)
    (hpos : ∀ b ∈ table.queue u, 0 < b.batchId) :
    table.nextMutationBatchAfterBatchId u
        ((front.getLast?.map MutationBatch.batchId).getD kBatchIdUnknown) = rest.head? := by
  have hsorted := sorted_queue table u
  rw [h, List.pairwise_append] at hsorted
  unfold nextMutationBatchAfterBatchId
  rw [h]
  rcases List.eq_nil_or_concat front with rfl | ⟨init, last, rfl⟩
  · refine find?_after (fun b hb => absurd hb List.not_mem_nil) ?_
    intro b hb
    have hb' := hpos b (h ▸ hb)
    show (-1 : Int) < b.batchId
    omega
  · rw [List.concat_eq_append] at hsorted ⊢
    rw [List.getLast?_concat, Option.map_some, Option.getD_some]
    refine find?_after ?_ ?_
    · intro b hb
      rcases List.mem_append.mp hb with hb | hb
      · exact le_of_lt ((List.pairwise_append.mp hsorted.1).2.2 b hb last List.mem_cons_self)
      · rw [List.mem_singleton.mp hb]
    · intro b hb
      exact hsorted.2.2 last (List.mem_append_right _ List.mem_cons_self) b hb

theorem le_foldl_max : ∀ (ids : List Int) (start : Int),
    start ≤ ids.foldl max start ∧ ∀ id ∈ ids, id ≤ ids.foldl max start := by
  intro ids
  induction ids with
  | nil =>
      intro start
      exact ⟨le_refl start, fun id hid => absurd hid List.not_mem_nil⟩
  | cons id rest ih =>
      intro start
      obtain ⟨hstart, hrest⟩ := ih (max start id)
      refine ⟨le_trans (le_max_left start id) hstart, ?_⟩
      intro other hother
      rcases List.mem_cons.mp hother with rfl | hother
      · exact le_trans (le_max_right start other) hstart
      · exact hrest other hother

/-- A batch id that is loaded is new. -/
theorem lt_loadNextBatchIdFromDb {b : MutationBatch U M} (h : b ∈ table) :
    b.batchId < table.loadNextBatchIdFromDb :=
  Int.lt_add_one_of_le ((le_foldl_max _ 0).2 _ (List.mem_map_of_mem h))

theorem loadNextBatchIdFromDb_pos (table : MutationTable U M) : 0 < table.loadNextBatchIdFromDb :=
  Int.lt_add_one_of_le (le_foldl_max _ 0).1

end MutationTable

/-! ### The ledger -/

/-- What has been written, committed, refused, blamed and answered. -/
structure Ledger (U M : Type) [LinearOrder U] where
  table : MutationTable U M
  nextBatchId : Int
  currentUser : U
  mutationCallbacks : List ((U × Int) × Nat)
  abandoned : List (List (MutationBatch U M))
  committed : List (MutationBatch U M)
  refused : List (MutationBatch U M × Code)
  blamed : List (MutationBatch U M × Code)
  written : U → List (MutationBatch U M)
  answered : U → List (MutationBatch U M × Status)
  notified : List (U × Nat × Status)

namespace Ledger

/-- The backend has committed what the user wrote as number `j`, or the client has given it up. -/
def Settled (l : Ledger U M) (committed : List (MutationBatch U M)) (u : U) (j : Nat) : Prop :=
  (∃ b ∈ committed, b.user = u ∧ b.serial = j) ∨
    ∃ b code, (b, .error code) ∈ l.answered u ∧ b.serial = j

/-- Each of the batches comes after all that its user has written before. -/
def Follows (l : Ledger U M) (batches : List (MutationBatch U M)) : Prop :=
  ∀ before b after, batches = before ++ b :: after → b ∈ l.written b.user ∧
    ∀ j < b.serial, (∃ b' ∈ before, b'.user = b.user ∧ b'.serial = j) ∨
      l.Settled l.committed b.user j

structure Tidy (l : Ledger U M) : Prop where
  positive : ∀ b ∈ l.table, 0 < b.batchId
  next : ∀ b ∈ l.table.queue l.currentUser, b.batchId < l.nextBatchId
  nextPos : 0 < l.nextBatchId
  /-- Whoever waits, waits for a batch that is still in the queue. -/
  waiting : ∀ x ∈ l.mutationCallbacks, ∃ b : MutationBatch U M, b ∈ l.table ∧
    (b.user, b.batchId) = x.1 ∧ b.serial = x.2
  history : ∀ u, l.written u = (l.answered u).map Prod.fst ++ l.table.queue u
  serial : ∀ u (i : Nat) b, (l.written u)[i]? = some b → b.user = u ∧ b.serial = i
  acknowledged : ∀ u b, (b, .ok ()) ∈ l.answered u → b ∈ l.committed
  rejected : ∀ u b code, (b, .error code) ∈ l.answered u →
    (b, code) ∈ l.refused ∨ (b, code) ∈ l.blamed
  told : ∀ u serial status, (u, serial, status) ∈ l.notified →
    ∃ b, (b, status) ∈ l.answered u ∧ b.serial = serial
  toldOnce : (l.notified.map fun x => (x.1, x.2.1)).Nodup
  inOrder : ∀ before (b : MutationBatch U M) after, l.committed = before ++ b :: after →
    b ∈ l.written b.user ∧ ∀ j < b.serial, l.Settled before b.user j
  late : ∀ batches ∈ l.abandoned, l.Follows batches

variable {l l' : Ledger U M}

theorem Settled.mono {u : U} {j : Nat} {committed committed' : List (MutationBatch U M)}
    (h : l.Settled committed u j) (hcommitted : ∀ b ∈ committed, b ∈ committed')
    (hanswered : ∀ x ∈ l.answered u, x ∈ l'.answered u) : l'.Settled committed' u j := by
  rcases h with ⟨b, hb, hbu⟩ | ⟨b, code, hb, hbj⟩
  · exact Or.inl ⟨b, hcommitted b hb, hbu⟩
  · exact Or.inr ⟨b, code, hanswered _ hb, hbj⟩

theorem Follows.mono {batches : List (MutationBatch U M)} (h : l.Follows batches)
    (hcommitted : ∀ b ∈ l.committed, b ∈ l'.committed)
    (hanswered : ∀ u, ∀ x ∈ l.answered u, x ∈ l'.answered u)
    (hwritten : ∀ u, ∀ b ∈ l.written u, b ∈ l'.written u) : l'.Follows batches := by
  intro before b after heq
  obtain ⟨hb, hbefore⟩ := h before b after heq
  refine ⟨hwritten _ b hb, ?_⟩
  intro j hj
  rcases hbefore j hj with hmem | hsettled
  · exact Or.inl hmem
  · exact Or.inr (hsettled.mono hcommitted (hanswered _))

theorem follows_nil (l : Ledger U M) : l.Follows [] := by
  intro before b after heq
  simp at heq

/-- The backend commits the first of them, and the others follow. -/
theorem Follows.tail {b : MutationBatch U M} {rest : List (MutationBatch U M)}
    (h : l.Follows (b :: rest)) (hb : b ∈ l'.committed)
    (hcommitted : ∀ b ∈ l.committed, b ∈ l'.committed)
    (hanswered : l'.answered = l.answered) (hwritten : l'.written = l.written) :
    l'.Follows rest := by
  intro before c after heq
  obtain ⟨hc, hbefore⟩ := h (b :: before) c after (by rw [heq]; rfl)
  refine ⟨hwritten ▸ hc, ?_⟩
  intro j hj
  rcases hbefore j hj with ⟨b', hb', hj'⟩ | hsettled
  · rcases List.mem_cons.mp hb' with rfl | hb'
    · exact Or.inr (Or.inl ⟨b', hb, hj'⟩)
    · exact Or.inl ⟨b', hb', hj'⟩
  · refine Or.inr (hsettled.mono hcommitted ?_)
    rw [hanswered]
    exact fun x hx => hx

namespace Tidy

theorem mem_written_of_answered (h : l.Tidy) {u : U} {x : MutationBatch U M × Status}
    (hx : x ∈ l.answered u) : x.1 ∈ l.written u := by
  rw [h.history]
  exact List.mem_append_left _ (List.mem_map_of_mem hx)

theorem mem_written_of_committed (h : l.Tidy) {b : MutationBatch U M} (hb : b ∈ l.committed) :
    b ∈ l.written b.user := by
  obtain ⟨before, after, heq⟩ := List.append_of_mem hb
  exact (h.inOrder before b after heq).1

/-- A batch is at its serial. -/
theorem getElem?_serial (h : l.Tidy) {u : U} {b : MutationBatch U M} (hb : b ∈ l.written u) :
    (l.written u)[b.serial]? = some b := by
  obtain ⟨i, hi⟩ := List.mem_iff_getElem?.mp hb
  rw [(h.serial u i b hi).2]
  exact hi

/-- Two batches a user has written with the same serial are one. -/
theorem eq_of_serial (h : l.Tidy) {u : U} {b c : MutationBatch U M} (hb : b ∈ l.written u)
    (hc : c ∈ l.written u) (hserial : b.serial = c.serial) : b = c := by
  obtain ⟨i, hi⟩ := List.mem_iff_getElem?.mp hb
  obtain ⟨j, hj⟩ := List.mem_iff_getElem?.mp hc
  have hij : i = j := by
    rw [← (h.serial u i b hi).2, ← (h.serial u j c hj).2, hserial]
  rw [hij, hj, Option.some_inj] at hi
  exact hi.symm

/-- What is in the queue has not been answered. -/
theorem serial_ne_of_answered (h : l.Tidy) {u : U} {b : MutationBatch U M}
    (hb : b ∈ l.table.queue u) {x : MutationBatch U M × Status} (hx : x ∈ l.answered u) :
    x.1.serial ≠ b.serial := by
  obtain ⟨i, hi⟩ := List.mem_iff_getElem?.mp hx
  obtain ⟨j, hj⟩ := List.mem_iff_getElem?.mp hb
  have hxi : (l.written u)[i]? = some x.1 := by
    rw [h.history, List.getElem?_append_left, List.getElem?_map, hi]
    · rfl
    · rw [List.length_map]
      exact (List.getElem?_eq_some_iff.mp hi).1
  have hbj : (l.written u)[(l.answered u).length + j]? = some b := by
    rw [h.history, List.getElem?_append_right, List.length_map, Nat.add_sub_cancel_left, hj]
    rw [List.length_map]
    exact Nat.le_add_right _ _
  rw [(h.serial u _ _ hxi).2, (h.serial u _ _ hbj).2]
  have hlt := (List.getElem?_eq_some_iff.mp hi).1
  omega

/-- Whatever comes after committed batches at the front of a queue is in its turn. -/
theorem follows (h : l.Tidy) {u : U} {done left more : List (MutationBatch U M)}
    (hqueue : l.table.queue u = done ++ left ++ more) (hdone : ∀ b ∈ done, b ∈ l.committed) :
    l.Follows left := by
  intro before b after heq
  have hwritten : l.written u = (l.answered u).map Prod.fst ++ (done ++ before) ++
      b :: (after ++ more) := by
    rw [h.history, hqueue, heq]
    simp
  have hb : (l.written u)[((l.answered u).map Prod.fst ++ (done ++ before)).length]? = some b := by
    rw [hwritten, List.getElem?_append_right (le_refl _), Nat.sub_self]
    rfl
  obtain ⟨huser, hserial⟩ := h.serial u _ b hb
  rw [huser]
  refine ⟨List.mem_of_getElem? hb, ?_⟩
  intro j hj
  rw [hserial] at hj
  -- Number `j` has been answered, or is in the queue before `b`.
  have hj' : (l.written u)[j]? = some (((l.answered u).map Prod.fst ++ (done ++ before))[j]) := by
    rw [hwritten, List.getElem?_append_left hj, List.getElem?_eq_getElem hj]
  obtain ⟨hcuser, hcserial⟩ := h.serial u j _ hj'
  rcases List.mem_append.mp (List.getElem_mem hj) with hc | hc
  · obtain ⟨⟨c, status⟩, hx, hxc⟩ := List.mem_map.mp hc
    rw [← hxc] at hcuser hcserial
    cases status with
    | ok _ => exact Or.inr (Or.inl ⟨c, h.acknowledged u c hx, hcuser, hcserial⟩)
    | error code => exact Or.inr (Or.inr ⟨c, code, hx, hcserial⟩)
  · rcases List.mem_append.mp hc with hc | hc
    · exact Or.inr (Or.inl ⟨_, hdone _ hc, hcuser, hcserial⟩)
    · exact Or.inl ⟨_, hc, hcuser, hcserial⟩

/-- The user writes. -/
theorem written (h : l.Tidy) (mutations : M) (callbacks : List ((U × Int) × Nat))
    (hcallbacks : ∀ x ∈ callbacks, x ∈ l.mutationCallbacks ∨
      x = ((l.currentUser, l.nextBatchId), (l.written l.currentUser).length)) :
    let batch : MutationBatch U M :=
      ⟨l.currentUser, l.nextBatchId, mutations, (l.written l.currentUser).length⟩
    ({ l with
      table := l.table.insert batch
      nextBatchId := l.nextBatchId + 1
      written := Function.update l.written l.currentUser (l.written l.currentUser ++ [batch])
      mutationCallbacks := callbacks } : Ledger U M).Tidy := by
  intro batch
  have hqueue : MutationTable.queue (l.table.insert batch) l.currentUser =
      l.table.queue l.currentUser ++ [batch] :=
    MutationTable.queue_insert_self l.table batch h.next
  have hothers : ∀ u, u ≠ l.currentUser →
      MutationTable.queue (l.table.insert batch) u = l.table.queue u :=
    fun u hu => MutationTable.queue_insert_of_ne l.table hu
  have hwritten : ∀ u, ∀ b ∈ l.written u, b ∈ Function.update l.written l.currentUser
      (l.written l.currentUser ++ [batch]) u := by
    intro u b hb
    by_cases hu : u = l.currentUser
    · subst hu
      rw [Function.update_self]
      exact List.mem_append_left _ hb
    · rw [Function.update_of_ne hu]
      exact hb
  -- No batch of the table has the key of the new one.
  have hkept : ∀ b ∈ l.table, b ∈ l.table.insert batch := by
    intro b hb
    refine Keyed.Set.mem_insert.mpr (Or.inr ⟨hb, ?_⟩)
    intro hkey
    have huser : b.user = l.currentUser := congrArg Prod.fst hkey
    have hid : b.batchId = l.nextBatchId := congrArg Prod.snd hkey
    have hlt := h.next b (MutationTable.mem_queue.mpr ⟨hb, huser⟩)
    omega
  refine ⟨?_, ?_, ?_, ?_, ?_, ?_, h.acknowledged, h.rejected, h.told, h.toldOnce, ?_, ?_⟩
  · intro b hb
    rcases Keyed.Set.mem_insert.mp hb with rfl | ⟨hb, -⟩
    · exact h.nextPos
    · exact h.positive b hb
  · intro b hb
    have hb' : b ∈ l.table.queue l.currentUser ++ [batch] := hqueue ▸ hb
    show b.batchId < l.nextBatchId + 1
    rcases List.mem_append.mp hb' with hb' | hb'
    · have hlt := h.next b hb'
      omega
    · rw [List.mem_singleton.mp hb']
      show l.nextBatchId < l.nextBatchId + 1
      omega
  · have hpos := h.nextPos
    show 0 < l.nextBatchId + 1
    omega
  · intro x hx
    rcases hcallbacks x hx with hx | rfl
    · obtain ⟨b, hb, hkey⟩ := h.waiting x hx
      exact ⟨b, hkept b hb, hkey⟩
    · exact ⟨batch, Keyed.Set.mem_insert.mpr (Or.inl rfl), rfl, rfl⟩
  · intro u
    show Function.update l.written l.currentUser (l.written l.currentUser ++ [batch]) u =
      (l.answered u).map Prod.fst ++ MutationTable.queue (l.table.insert batch) u
    by_cases hu : u = l.currentUser
    · subst hu
      rw [Function.update_self, hqueue, h.history, List.append_assoc]
    · rw [Function.update_of_ne hu, hothers u hu]
      exact h.history u
  · intro u i b hb
    have hb' : (Function.update l.written l.currentUser (l.written l.currentUser ++ [batch]) u)[i]? =
        some b := hb
    by_cases hu : u = l.currentUser
    · subst hu
      rw [Function.update_self, List.getElem?_append] at hb'
      by_cases hi : i < (l.written l.currentUser).length
      · rw [if_pos hi] at hb'
        exact h.serial _ i b hb'
      · rw [if_neg hi, List.getElem?_singleton] at hb'
        obtain ⟨hzero, hbatch⟩ := Option.ite_none_right_eq_some.mp hb'
        rw [← Option.some_inj.mp hbatch]
        refine ⟨rfl, ?_⟩
        show (l.written l.currentUser).length = i
        omega
    · rw [Function.update_of_ne hu] at hb'
      exact h.serial u i b hb'
  · intro before b after heq
    obtain ⟨hb, hsettled⟩ := h.inOrder before b after heq
    exact ⟨hwritten _ b hb, hsettled⟩
  · intro batches hbatches
    exact (h.late batches hbatches).mono (fun _ hb => hb) (fun _ _ hx => hx) hwritten

/-- The first batch of the current user's queue is answered. -/
theorem answered (h : l.Tidy) {batch : MutationBatch U M} {rest : List (MutationBatch U M)}
    (hqueue : l.table.queue l.currentUser = batch :: rest) (status : Status)
    (hok : status = .ok () → batch ∈ l.committed)
    (herror : ∀ code, status = .error code →
      (batch, code) ∈ l.refused ∨ (batch, code) ∈ l.blamed) :
    ({ l with
      table := l.table.erase (l.currentUser, batch.batchId)
      answered := Function.update l.answered l.currentUser
        (l.answered l.currentUser ++ [(batch, status)])
      mutationCallbacks := l.mutationCallbacks.filter fun x =>
        x.1 ≠ (l.currentUser, batch.batchId)
      notified := l.notified ++
        (l.mutationCallbacks.lookup (l.currentUser, batch.batchId)).toList.map fun serial =>
          (l.currentUser, serial, status) } : Ledger U M).Tidy := by
  have hmem : batch ∈ l.table.queue l.currentUser := by
    rw [hqueue]
    exact List.mem_cons_self
  have hanswered : ∀ u, ∀ x ∈ l.answered u, x ∈ Function.update l.answered l.currentUser
      (l.answered l.currentUser ++ [(batch, status)]) u := by
    intro u x hx
    by_cases hu : u = l.currentUser
    · subst hu
      rw [Function.update_self]
      exact List.mem_append_left _ hx
    · rw [Function.update_of_ne hu]
      exact hx
  have hnew : ∀ u b st, (b, st) ∈ Function.update l.answered l.currentUser
      (l.answered l.currentUser ++ [(batch, status)]) u →
      (b, st) ∈ l.answered u ∨ b = batch ∧ st = status := by
    intro u b st hb
    by_cases hu : u = l.currentUser
    · subst hu
      rw [Function.update_self, List.mem_append, List.mem_singleton, Prod.mk.injEq] at hb
      exact hb
    · rw [Function.update_of_ne hu] at hb
      exact Or.inl hb
  -- A caller who waits for this batch has its serial.
  have hcaller : ∀ serial, l.mutationCallbacks.lookup (l.currentUser, batch.batchId) = some serial →
      serial = batch.serial := by
    intro serial hserial
    obtain ⟨before, after, hsplit, -⟩ := List.lookup_eq_some_iff.mp hserial
    have hwaits : ((l.currentUser, batch.batchId), serial) ∈ l.mutationCallbacks := by
      rw [hsplit]
      exact List.mem_append_right _ List.mem_cons_self
    obtain ⟨b, hb, hkey, rfl⟩ := h.waiting _ hwaits
    have heq : b = batch := l.table.eq_of_key_eq hb (MutationTable.mem_queue.mp hmem).1
      (hkey.trans (Prod.ext (MutationTable.mem_queue.mp hmem).2.symm rfl))
    rw [heq]
  refine ⟨?_, ?_, h.nextPos, ?_, ?_, h.serial, ?_, ?_, ?_, ?_, ?_, ?_⟩
  · intro b hb
    exact h.positive b (Keyed.Set.mem_erase.mp hb).1
  · intro b hb
    have hb' : b ∈ rest := MutationTable.queue_erase_head hqueue ▸ hb
    refine h.next b ?_
    rw [hqueue]
    exact List.mem_cons_of_mem _ hb'
  · intro x hx
    obtain ⟨hx, hne⟩ := List.mem_filter.mp hx
    obtain ⟨b, hb, hkey, hserial⟩ := h.waiting x hx
    refine ⟨b, Keyed.Set.mem_erase.mpr ⟨hb, ?_⟩, hkey, hserial⟩
    intro hkey'
    exact of_decide_eq_true hne (hkey.symm.trans hkey')
  · intro u
    show l.written u = (Function.update l.answered l.currentUser _ u).map Prod.fst ++
      MutationTable.queue (l.table.erase (l.currentUser, batch.batchId)) u
    by_cases hu : u = l.currentUser
    · subst hu
      rw [Function.update_self, MutationTable.queue_erase_head hqueue, h.history, hqueue]
      simp
    · rw [Function.update_of_ne hu, MutationTable.queue_erase_of_ne hu]
      exact h.history u
  · intro u b hb
    rcases hnew u b _ hb with hb | ⟨rfl, hst⟩
    · exact h.acknowledged u b hb
    · exact hok hst.symm
  · intro u b code hb
    rcases hnew u b _ hb with hb | ⟨rfl, hst⟩
    · exact h.rejected u b code hb
    · exact herror code hst.symm
  · intro u serial st hst
    rcases List.mem_append.mp hst with hst | hst
    · obtain ⟨b, hb, hserial⟩ := h.told u serial st hst
      exact ⟨b, hanswered u _ hb, hserial⟩
    · obtain ⟨serial', hserial', heq⟩ := List.mem_map.mp hst
      obtain ⟨rfl, rfl, rfl⟩ : l.currentUser = u ∧ serial' = serial ∧ status = st := by
        simpa using heq
      refine ⟨batch, ?_, (hcaller serial' (Option.mem_toList.mp hserial')).symm⟩
      show (batch, status) ∈ Function.update l.answered l.currentUser _ l.currentUser
      rw [Function.update_self]
      exact List.mem_append_right _ List.mem_cons_self
  · show ((l.notified ++ _).map fun x => (x.1, x.2.1)).Nodup
    rw [List.map_append, List.nodup_append, List.map_map]
    refine ⟨h.toldOnce, ?_, ?_⟩
    · cases l.mutationCallbacks.lookup (l.currentUser, batch.batchId) with
      | none => exact List.nodup_nil
      | some serial => exact List.nodup_singleton _
    · -- Who has been told was told about an answered batch.
      intro x hx y hy hxy
      obtain ⟨⟨u, serial, st⟩, hn, rfl⟩ := List.mem_map.mp hx
      obtain ⟨serial', hserial', rfl⟩ := List.mem_map.mp hy
      obtain ⟨rfl, rfl⟩ : u = l.currentUser ∧ serial = serial' := by simpa using hxy
      obtain ⟨b, hb, hbserial⟩ := h.told _ _ _ hn
      refine h.serial_ne_of_answered hmem hb ?_
      exact hbserial.trans (hcaller serial (Option.mem_toList.mp hserial'))
  · intro before b after heq
    obtain ⟨hb, hsettled⟩ := h.inOrder before b after heq
    exact ⟨hb, fun j hj => (hsettled j hj).mono (fun _ hb => hb) (hanswered _)⟩
  · intro batches hbatches
    exact (h.late batches hbatches).mono (fun _ hb => hb) hanswered (fun _ _ hb => hb)

/-- The backend commits a batch whose turn it is. -/
theorem committed (h : l.Tidy) {batch : MutationBatch U M} {rest : List (MutationBatch U M)}
    (hfollows : l.Follows (batch :: rest)) {abandoned : List (List (MutationBatch U M))}
    (habandoned : ∀ batches ∈ abandoned, batches ∈ l.abandoned ∨ batches = rest) :
    ({ l with committed := l.committed ++ [batch], abandoned } : Ledger U M).Tidy := by
  obtain ⟨hbatch, hturn⟩ := hfollows [] batch rest rfl
  refine ⟨h.positive, h.next, h.nextPos, h.waiting, h.history, h.serial, ?_, h.rejected, h.told,
    h.toldOnce, ?_, ?_⟩
  · intro u b hb
    exact List.mem_append_left _ (h.acknowledged u b hb)
  · intro before b after heq
    have heq' : l.committed ++ [batch] = before ++ b :: after := heq
    rcases List.eq_nil_or_concat after with rfl | ⟨init, last, rfl⟩
    · -- It is the last one committed.
      obtain ⟨rfl, hlast⟩ := List.append_inj' heq' rfl
      obtain rfl : batch = b := by simpa using hlast
      refine ⟨hbatch, ?_⟩
      intro j hj
      rcases hturn j hj with ⟨b', hb', -⟩ | hsettled
      · exact absurd hb' List.not_mem_nil
      · exact hsettled.mono (fun _ hb => hb) (fun _ hx => hx)
    · rw [List.concat_eq_append, ← List.cons_append, ← List.append_assoc] at heq'
      obtain ⟨hinit, -⟩ := List.append_inj' heq' rfl
      obtain ⟨hb, hsettled⟩ := h.inOrder before b init hinit
      exact ⟨hb, fun j hj => (hsettled j hj).mono (fun _ hb => hb) (fun _ hx => hx)⟩
  · intro batches hbatches
    rcases habandoned batches hbatches with hbatches | rfl
    · exact (h.late batches hbatches).mono (fun _ hb => List.mem_append_left _ hb)
        (fun _ _ hx => hx) (fun _ _ hb => hb)
    · exact hfollows.tail (List.mem_append_right _ List.mem_cons_self)
        (fun _ hb => List.mem_append_left _ hb) rfl rfl

/-- The backend refuses a batch, or one is blamed for an error. -/
theorem accused (h : l.Tidy) {refused blamed : List (MutationBatch U M × Code)}
    (hrefused : ∀ x ∈ l.refused, x ∈ refused) (hblamed : ∀ x ∈ l.blamed, x ∈ blamed) :
    ({ l with refused, blamed } : Ledger U M).Tidy :=
  ⟨h.positive, h.next, h.nextPos, h.waiting, h.history, h.serial, h.acknowledged,
    fun u b code hb => (h.rejected u b code hb).imp (hrefused _) (hblamed _), h.told, h.toldOnce,
    h.inOrder, h.late⟩

/-- A stream is given up. -/
theorem abandon (h : l.Tidy) {batches : List (MutationBatch U M)} (hbatches : l.Follows batches)
    {abandoned : List (List (MutationBatch U M))}
    (habandoned : ∀ bs ∈ abandoned, bs ∈ l.abandoned ∨ bs = batches) :
    ({ l with abandoned } : Ledger U M).Tidy := by
  refine ⟨h.positive, h.next, h.nextPos, h.waiting, h.history, h.serial, h.acknowledged,
    h.rejected, h.told, h.toldOnce, h.inOrder, ?_⟩
  intro bs hbs
  rcases habandoned bs hbs with hbs | rfl
  · exact h.late bs hbs
  · exact hbatches

/-- The queue of a user is opened. -/
theorem userChange (h : l.Tidy) (user : U) (callbacks : List ((U × Int) × Nat))
    (hcallbacks : ∀ x ∈ callbacks, x ∈ l.mutationCallbacks) :
    ({ l with
      currentUser := user
      nextBatchId := l.table.loadNextBatchIdFromDb
      mutationCallbacks := callbacks } : Ledger U M).Tidy := by
  refine ⟨h.positive, ?_, MutationTable.loadNextBatchIdFromDb_pos l.table, ?_, h.history, h.serial,
    h.acknowledged, h.rejected, h.told, h.toldOnce, h.inOrder, h.late⟩
  · intro b hb
    exact MutationTable.lt_loadNextBatchIdFromDb (MutationTable.mem_queue.mp hb).1
  · intro x hx
    exact h.waiting x (hcallbacks x hx)

end Tidy

end Ledger

end Firebase
