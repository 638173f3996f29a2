/-
What every run of the local store keeps.

A batch does to a document what its mutations of that document do (`applyToLocalView_eq`), and
so does the queue.  Where the source applies a batch to a document more than once, only the
first time counts (`applyToLocalDocumentSet_eq`).

`Sound` is the invariant: the cached documents have no local writes, and every overlay belongs
to a batch of the queue that has its document, and has no precondition.  From that alone, a
document none of whose writes is pending is shown as it is cached.
-/
import GoodThing.Firebase.LocalStore
import GoodThing.Proofs.Overlay

namespace Firebase.Local

open Nested

variable {K S A : Type} [LinearOrder S]

/-! ### One document of a batch -/

theorem key_applyToLocalView (m : Mutation K S A) (d : MutableDocument K S A)
    (mask : Option (FieldMask S)) : (m.applyToLocalView d mask).1.key = d.key := by
  unfold Mutation.applyToLocalView
  split
  · cases m <;> rfl
  · rfl

/-- The mask has no part in the document. -/
theorem fst_applyToLocalView (m : Mutation K S A) (d : MutableDocument K S A)
    (mask mask' : Option (FieldMask S)) :
    (m.applyToLocalView d mask).1 = (m.applyToLocalView d mask').1 := by
  unfold Mutation.applyToLocalView
  split
  · cases m <;> rfl
  · rfl

/-- Mutations of a document on a view of it. -/
def applyOn (ms : List (Mutation K S A)) (view : MutableDocument K S A × Option (FieldMask S)) :
    MutableDocument K S A × Option (FieldMask S) :=
  ms.foldl (fun view m => m.applyToLocalView view.1 view.2) view

theorem key_applyOn (ms : List (Mutation K S A))
    (view : MutableDocument K S A × Option (FieldMask S)) :
    (applyOn ms view).1.key = view.1.key := by
  induction ms generalizing view with
  | nil => rfl
  | cons m ms ih =>
      show (applyOn ms (m.applyToLocalView view.1 view.2)).1.key = _
      rw [ih, key_applyToLocalView]

theorem fst_applyOn (ms : List (Mutation K S A))
    {view view' : MutableDocument K S A × Option (FieldMask S)} (h : view.1 = view'.1) :
    (applyOn ms view).1 = (applyOn ms view').1 := by
  induction ms generalizing view view' with
  | nil => exact h
  | cons m ms ih =>
      refine ih ?_
      show (m.applyToLocalView view.1 view.2).1 = (m.applyToLocalView view'.1 view'.2).1
      rw [h]
      exact fst_applyToLocalView m _ _ _

theorem precondition_calculateOverlayMutation {d : MutableDocument K S A}
    {mask : Option (FieldMask S)} {m : Mutation K S A}
    (h : Mutation.calculateOverlayMutation d mask = some m) : m.precondition = .none := by
  unfold Mutation.calculateOverlayMutation at h
  split at h
  · cases h
  · split at h
    · split at h
      · obtain rfl := Option.some_inj.mp h
        rfl
      · obtain rfl := Option.some_inj.mp h
        rfl
    · obtain rfl := Option.some_inj.mp h
      rfl

/-- What leaves a document without local writes has not changed it. -/
theorem applyOn_local {ms : List (Mutation K S A)} {d : MutableDocument K S A}
    {mask : Option (FieldMask S)} :
    (applyOn ms (d, mask)).1.hasLocalMutations = false ↔
      d.hasLocalMutations = false ∧ ∀ m ∈ ms, m.precondition.isValidFor d.cell = false := by
  induction ms generalizing d mask with
  | nil => simp [applyOn]
  | cons m ms ih =>
      have hcons : applyOn (m :: ms) (d, mask) = applyOn ms (m.applyToLocalView d mask) := rfl
      rw [hcons, ih, List.forall_mem_cons]
      unfold Mutation.applyToLocalView
      cases hm : m.precondition.isValidFor d.cell with
      | false => simp
      | true =>
          cases m <;> simp [MutableDocument.setHasLocalMutations, MutableDocument.hasLocalMutations]

theorem applyOn_eq {ms : List (Mutation K S A)} {d : MutableDocument K S A}
    (h : ∀ m ∈ ms, m.precondition.isValidFor d.cell = false) (mask : Option (FieldMask S)) :
    applyOn ms (d, mask) = (d, mask) := by
  induction ms with
  | nil => rfl
  | cons m ms ih =>
      obtain ⟨hm, hms⟩ := List.forall_mem_cons.mp h
      have hfirst : m.applyToLocalView d mask = (d, mask) := by
        simp [Mutation.applyToLocalView, hm]
      show applyOn ms (m.applyToLocalView d mask) = _
      rw [hfirst, ih hms]

theorem calculateOverlayMutation_eq_none {d : MutableDocument K S A}
    {mask : Option (FieldMask S)} :
    Mutation.calculateOverlayMutation d mask = none ↔ d.hasLocalMutations = false := by
  unfold Mutation.calculateOverlayMutation
  split
  · next h => simpa using h
  · next h =>
    split
    · split <;> simpa using h
    · simpa using h

variable [DecidableEq K]

namespace Batch

/-- The mutations of one document. -/
def on (b : Batch K S A) (key : K) : List (Mutation K S A) :=
  b.mutations.filter fun m => m.key = key

theorem on_eq_nil {b : Batch K S A} {key : K} (h : b.touches key = false) : b.on key = [] := by
  rw [on, List.filter_eq_nil_iff]
  intro m hm
  rw [touches, List.any_eq_false] at h
  exact h m hm

theorem applyToLocalView_eq (b : Batch K S A) (d : MutableDocument K S A)
    (mask : Option (FieldMask S)) :
    b.applyToLocalView d mask = applyOn (b.on d.key) (d, mask) := by
  have hfold : ∀ (ms : List (Mutation K S A))
      (view : MutableDocument K S A × Option (FieldMask S)),
      ms.foldl (fun view m => if m.key = view.1.key then m.applyToLocalView view.1 view.2 else view)
        view = applyOn (ms.filter fun m => m.key = view.1.key) view := by
    intro ms
    induction ms with
    | nil => exact fun _ => rfl
    | cons m ms ih =>
        intro view
        rw [List.foldl_cons, ih]
        by_cases hm : m.key = view.1.key
        · rw [if_pos hm, List.filter_cons_of_pos (by simpa using hm), key_applyToLocalView]
          rfl
        · rw [if_neg hm, List.filter_cons_of_neg (by simpa using hm)]
  exact hfold b.mutations (d, mask)

theorem foldl_applyToEntry_some (b : Batch K S A) (mask : Option (FieldMask S))
    (ms : List (Mutation K S A)) (d : MutableDocument K S A) (o : Mutation K S A) :
    (ms.foldl (fun entry _ => b.applyToEntry mask entry) (d, some o)).2 = some o := by
  induction ms generalizing d with
  | nil => rfl
  | cons m ms ih => exact ih _

/-- Where there is no overlay, nothing has changed that there could be one the next time. -/
theorem foldl_applyToEntry_none {b : Batch K S A} {mask : Option (FieldMask S)}
    (ms : List (Mutation K S A)) {d : MutableDocument K S A}
    (hd : (b.applyToLocalView d mask).1.hasLocalMutations = false) :
    (ms.foldl (fun entry _ => b.applyToEntry mask entry) (d, none)).2 = none := by
  induction ms generalizing d with
  | nil => rfl
  | cons m ms ih =>
      have hnone : b.applyToEntry mask (d, none) =
          (if d.isValidDocument then d else d.convertToNoDocument 0, none) := by
        have hcalc : Mutation.calculateOverlayMutation (b.applyToLocalView d mask).1
            (b.applyToLocalView d mask).2 = none := calculateOverlayMutation_eq_none.mpr hd
        rw [applyToLocalView_eq] at hd hcalc
        rw [applyToEntry, applyToLocalView_eq, hcalc, applyOn_eq (applyOn_local.mp hd).2]
        rfl
      rw [List.foldl_cons, hnone]
      refine ih ?_
      rw [applyToLocalView_eq, applyOn_local] at hd ⊢
      split
      · exact hd
      · next hinvalid =>
        have hcell : (d.convertToNoDocument 0).cell = d.cell := by
          have htype : d.type = .invalid := by
            simpa [MutableDocument.isValidDocument] using hinvalid
          simp [MutableDocument.cell, MutableDocument.isFoundDocument,
            MutableDocument.convertToNoDocument, htype]
        rw [hcell]
        exact ⟨rfl, hd.2⟩

/-- Applying the batch once is enough. -/
theorem applyToLocalDocumentSet_eq {b : Batch K S A} {d : MutableDocument K S A}
    (htouches : b.touches d.key = true) (mask : Option (FieldMask S)) :
    b.applyToLocalDocumentSet d mask =
      Mutation.calculateOverlayMutation (b.applyToLocalView d mask).1
        (b.applyToLocalView d mask).2 := by
  obtain ⟨m, ms, hon⟩ : ∃ m ms, (b.mutations.filter fun m => m.key = d.key) = m :: ms := by
    obtain ⟨m, hm, hkey⟩ := List.any_eq_true.mp htouches
    exact List.exists_cons_of_ne_nil (List.ne_nil_of_mem (List.mem_filter.mpr ⟨hm, hkey⟩))
  rw [applyToLocalDocumentSet, hon, List.foldl_cons]
  cases ho : Mutation.calculateOverlayMutation (b.applyToLocalView d mask).1
      (b.applyToLocalView d mask).2 with
  | none =>
      exact foldl_applyToEntry_none (m :: ms) (calculateOverlayMutation_eq_none.mp ho)
  | some o =>
      have hfirst : (b.applyToEntry mask (d, none)).2 = some o := ho
      rw [← Prod.eta (b.applyToEntry mask (d, none)), hfirst, foldl_applyToEntry_some]

end Batch

namespace LocalStore

/-- The writes of a document that are not answered. -/
def pending (s : LocalStore K S A) (key : K) : List (Mutation K S A) :=
  s.queue.flatMap fun b => b.on key

theorem foldl_batches (batches : List (Batch K S A))
    (view : MutableDocument K S A × Option (FieldMask S)) :
    batches.foldl (fun view b => b.applyToLocalView view.1 view.2) view =
      applyOn (batches.flatMap fun b => b.on view.1.key) view := by
  induction batches generalizing view with
  | nil => rfl
  | cons b batches ih =>
      rw [List.foldl_cons, ih, Batch.applyToLocalView_eq, key_applyOn, List.flatMap_cons, applyOn,
        applyOn, applyOn, List.foldl_append]

theorem flatMap_touches (batches : List (Batch K S A)) (key : K) :
    ((batches.filter fun b => b.touches key).flatMap fun b => b.on key) =
      batches.flatMap fun b => b.on key := by
  induction batches with
  | nil => rfl
  | cons b batches ih =>
      rw [List.flatMap_cons]
      rcases Bool.eq_false_or_eq_true (b.touches key) with hb | hb
      · rw [List.filter_cons, if_pos hb, List.flatMap_cons, ih]
      · rw [List.filter_cons, if_neg (by simp [hb]), ih, Batch.on_eq_nil hb, List.nil_append]

theorem getDocumentOfBatches_eq (s : LocalStore K S A) {key : K}
    (hkey : (s.remote key).key = key) :
    s.getDocumentOfBatches key = (Mutation.applyAll (s.pending key) (s.remote key)).1 := by
  have hfold : ∀ (batches : List (Batch K S A)) (d : MutableDocument K S A), d.key = key →
      batches.foldl (fun d b => (b.applyToLocalView d (some ∅)).1) d =
        (applyOn (batches.flatMap fun b => b.on key) (d, some ∅)).1 := by
    intro batches
    induction batches with
    | nil => exact fun _ _ => rfl
    | cons b batches ih =>
        intro d hd
        have hkey : (b.applyToLocalView d (some ∅)).1.key = key := by
          rw [Batch.applyToLocalView_eq, key_applyOn, hd]
        rw [List.foldl_cons, ih _ hkey, List.flatMap_cons]
        show _ = ((b.on key ++ _).foldl _ (d, some ∅)).1
        rw [List.foldl_append, Batch.applyToLocalView_eq, hd]
        exact fst_applyOn _ rfl
  exact hfold s.queue (s.remote key) hkey

/-! ### What every run keeps -/

structure Sound (s : LocalStore K S A) : Prop where
  /-- A document is cached under its key. -/
  key_remote : ∀ key, (s.remote key).key = key
  /-- The cache knows nothing of writes that are not acknowledged. -/
  synced : ∀ key, (s.remote key).hasLocalMutations = false
  /-- The queue is in the order of the batch ids. -/
  ordered : (s.queue.map Batch.batchId).Pairwise (· < ·)
  fresh : ∀ b ∈ s.queue, b.batchId < s.nextBatchId
  /-- What is in the queue is what the app can write. -/
  issued : ∀ b ∈ s.queue, ∀ m ∈ b.mutations, ∃ w, m = Write.toMutation m.key w
  /-- An overlay belongs to a batch with its document. -/
  owned : ∀ key o, s.overlays key = some o →
    ∃ b ∈ s.queue, b.touches key = true ∧ b.batchId = o.largestBatchId
  /-- An overlay has no precondition. -/
  free : ∀ key o, s.overlays key = some o → o.mutation.precondition = .none

omit [DecidableEq K] in
theorem saveOverlay_eq_some {id : Nat} {m : Option (Mutation K S A)}
    {old : Option (Overlay K S A)} {o : Overlay K S A} (h : saveOverlay id m old = some o) :
    (o.largestBatchId = id ∧ m = some o.mutation) ∨ old = some o := by
  cases m with
  | none => exact .inr h
  | some m =>
      obtain rfl := Option.some_inj.mp h
      exact .inl ⟨rfl, rfl⟩

theorem recalculateAndSaveOverlay_eq_some {s : LocalStore K S A} {key : K}
    {d : MutableDocument K S A} {o : Overlay K S A}
    (h : s.recalculateAndSaveOverlay key d = some o) :
    ((∃ b ∈ s.queue, b.touches key = true ∧ b.batchId = o.largestBatchId) ∧
      o.mutation.precondition = .none) ∨ s.overlays key = some o := by
  unfold recalculateAndSaveOverlay at h
  simp only at h
  split at h
  · exact .inr h
  · next last hlast =>
    rcases saveOverlay_eq_some h with ⟨hid, hm⟩ | h
    · have hmem := List.mem_of_getLast? hlast
      rw [List.mem_filter] at hmem
      exact .inl ⟨⟨last, hmem.1, hmem.2, hid.symm⟩, precondition_calculateOverlayMutation hm⟩
    · exact .inr h

theorem sound_start : Sound (start : LocalStore K S A) where
  key_remote _ := rfl
  synced _ := rfl
  ordered := List.Pairwise.nil
  fresh := by simp [start]
  issued := by simp [start]
  owned := by simp [start]
  free := by simp [start]

variable {s : LocalStore K S A}

theorem Sound.key_overlayedDocument (h : Sound s) (key : K) :
    (s.overlayedDocument key).1.key = key := by
  unfold overlayedDocument
  split
  · exact h.key_remote key
  · rw [key_applyToLocalView, h.key_remote]

theorem Sound.writeLocally (h : Sound s) {ms : List (Mutation K S A)}
    (hms : ∀ m ∈ ms, ∃ w, m = Write.toMutation m.key w) : Sound (s.writeLocally ms) := by
  unfold LocalStore.writeLocally
  split
  · exact h
  · have hsave : ∀ key o, (if (Batch.mk s.nextBatchId ms).touches key then
        saveOverlay s.nextBatchId
          ((Batch.mk s.nextBatchId ms).applyToLocalDocumentSet (s.overlayedDocument key).1
            (s.overlayedDocument key).2) (s.overlays key)
        else s.overlays key) = some o →
        ((Batch.mk s.nextBatchId ms).touches key = true ∧ s.nextBatchId = o.largestBatchId ∧
          o.mutation.precondition = .none) ∨ s.overlays key = some o := by
      intro key o ho
      split at ho
      · next htouches =>
        rcases saveOverlay_eq_some ho with ⟨hid, hm⟩ | ho
        · rw [Batch.applyToLocalDocumentSet_eq (by rwa [h.key_overlayedDocument])] at hm
          exact .inl ⟨htouches, hid.symm, precondition_calculateOverlayMutation hm⟩
        · exact .inr ho
      · exact .inr ho
    refine ⟨h.key_remote, h.synced, ?_, fun b hb => ?_, fun b hb => ?_, fun key o ho => ?_,
      fun key o ho => ?_⟩
    · rw [List.map_append, List.pairwise_append]
      refine ⟨h.ordered, List.pairwise_singleton _ _, ?_⟩
      intro x hx y hy
      obtain ⟨b, hb, rfl⟩ := List.mem_map.mp hx
      obtain rfl : y = s.nextBatchId := by simpa using hy
      exact h.fresh b hb
    · rcases List.mem_append.mp hb with hb | hb
      · exact Nat.lt_succ_of_lt (h.fresh b hb)
      · obtain rfl := List.mem_singleton.mp hb
        exact Nat.lt_succ_self _
    · rcases List.mem_append.mp hb with hb | hb
      · exact h.issued b hb
      · obtain rfl := List.mem_singleton.mp hb
        exact hms
    · rcases hsave key o ho with ⟨htouches, hid, -⟩ | ho
      · exact ⟨_, List.mem_append_right _ List.mem_cons_self, htouches, hid⟩
      · obtain ⟨b, hb, hown⟩ := h.owned key o ho
        exact ⟨b, List.mem_append_left _ hb, hown⟩
    · rcases hsave key o ho with ⟨-, -, hfree⟩ | ho
      · exact hfree
      · exact h.free key o ho

theorem Sound.removeBatch (h : Sound s) {batch : Batch K S A} {rest : List (Batch K S A)}
    (hqueue : s.queue = batch :: rest) : Sound (s.removeBatch batch rest) := by
  have hordered := h.ordered
  rw [hqueue, List.map_cons] at hordered
  obtain ⟨-, hrest⟩ := List.pairwise_cons.mp hordered
  have hmem : ∀ b ∈ rest, b ∈ s.queue := fun b hb => hqueue ▸ List.mem_cons_of_mem batch hb
  -- What the batch does not take with it belongs to another one.
  have hleft : ∀ key o,
      (s.overlays key).filter (fun o => decide (o.largestBatchId ≠ batch.batchId)) = some o →
      (∃ b ∈ rest, b.touches key = true ∧ b.batchId = o.largestBatchId) ∧
        o.mutation.precondition = .none := by
    intro key o ho
    obtain ⟨ho, hid⟩ := Option.filter_eq_some_iff.mp ho
    obtain ⟨b, hb, htouches, hown⟩ := h.owned key o ho
    refine ⟨⟨b, ?_, htouches, hown⟩, h.free key o ho⟩
    rw [hqueue] at hb
    rcases List.mem_cons.mp hb with rfl | hb
    · simp [hown] at hid
    · exact hb
  have hkept : ∀ key o, (s.removeBatch batch rest).overlays key = some o →
      (∃ b ∈ rest, b.touches key = true ∧ b.batchId = o.largestBatchId) ∧
        o.mutation.precondition = .none := by
    intro key o ho
    unfold LocalStore.removeBatch at ho
    simp only at ho
    split at ho
    · rcases recalculateAndSaveOverlay_eq_some ho with hnew | ho
      · exact hnew
      · exact hleft key o ho
    · exact hleft key o ho
  exact ⟨h.key_remote, h.synced, hrest, fun b hb => h.fresh b (hmem b hb),
    fun b hb => h.issued b (hmem b hb), fun key o ho => (hkept key o ho).1,
    fun key o ho => (hkept key o ho).2⟩

/-- Only what is cached has changed. -/
theorem Sound.cache (h : Sound s) {remote : K → MutableDocument K S A}
    (hkey : ∀ key, (remote key).key = key)
    (hsynced : ∀ key, (remote key).hasLocalMutations = false) : Sound { s with remote } :=
  ⟨hkey, hsynced, h.ordered, h.fresh, h.issued, h.owned, h.free⟩

omit [DecidableEq K] in
theorem applyToRemoteDocument_ok (m : Mutation K S A) (d : MutableDocument K S A)
    (version : Nat) :
    (m.applyToRemoteDocument d version).key = d.key ∧
      (m.applyToRemoteDocument d version).hasLocalMutations = false := by
  cases m with
  | set key precondition value => exact ⟨rfl, rfl⟩
  | delete key precondition => exact ⟨rfl, rfl⟩
  | patch key precondition value fieldMask =>
      simp only [Mutation.applyToRemoteDocument]
      constructor
      · split <;> rfl
      · split <;> rfl

theorem applyBatchResult_ok (batch : Batch K S A) (version : Nat → Nat)
    {d : MutableDocument K S A} (hd : d.hasLocalMutations = false) :
    (applyBatchResult batch version d).key = d.key ∧
      (applyBatchResult batch version d).hasLocalMutations = false := by
  have hfold : ∀ (ms : List (Mutation K S A × Nat)) (d : MutableDocument K S A),
      d.hasLocalMutations = false →
      (ms.foldl (fun d m => if m.1.key = d.key then m.1.applyToRemoteDocument d (version m.2) else d)
        d).key = d.key ∧
      (ms.foldl (fun d m => if m.1.key = d.key then m.1.applyToRemoteDocument d (version m.2) else d)
        d).hasLocalMutations = false := by
    intro ms
    induction ms with
    | nil => exact fun d hd => ⟨rfl, hd⟩
    | cons m ms ih =>
        intro d hd
        rw [List.foldl_cons]
        split
        · obtain ⟨hkey, hlocal⟩ := applyToRemoteDocument_ok m.1 d (version m.2)
          rw [← hkey]
          exact ih _ hlocal
        · exact ih d hd
  unfold applyBatchResult
  split
  · simp only
    split
    · exact hfold batch.mutations.zipIdx d hd
    · exact ⟨rfl, hd⟩
  · exact ⟨rfl, hd⟩

/-- The mutations of a batch are in the cache. -/
theorem Sound.applied (h : Sound s) (batch : Batch K S A) (version : Nat → Nat) :
    Sound { s with
      remote := fun key =>
        if batch.touches key then applyBatchResult batch version (s.remote key)
        else s.remote key } := by
  refine h.cache (fun key => ?_) fun key => ?_
  · split
    · rw [(applyBatchResult_ok batch version (h.synced key)).1, h.key_remote]
    · exact h.key_remote key
  · split
    · exact (applyBatchResult_ok batch version (h.synced key)).2
    · exact h.synced key

theorem Sound.acknowledgeBatch (h : Sound s) (version : Nat → Nat) :
    Sound (s.acknowledgeBatch version) := by
  unfold LocalStore.acknowledgeBatch
  split
  · exact h
  · next batch rest hqueue => exact (h.applied batch version).removeBatch hqueue

theorem Sound.rejectBatch (h : Sound s) : Sound s.rejectBatch := by
  unfold LocalStore.rejectBatch
  split
  · exact h
  · next batch rest hqueue => exact h.removeBatch hqueue

omit [DecidableEq K] in
theorem document_ok (u : Update K S A) :
    u.document.key = u.key ∧ u.document.hasLocalMutations = false := by
  unfold Update.document
  split <;> exact ⟨rfl, rfl⟩

omit [DecidableEq K] in
/-- What is cached for a document of a remote event is this document, or nothing if there is
none: it is there as that is. -/
theorem populateDocumentChange_ok {existing d : MutableDocument K S A} {u : Update K S A}
    (h : populateDocumentChange existing u.document = some d) :
    d.key = u.key ∧ d.hasLocalMutations = false ∧
      d.isFoundDocument = u.document.isFoundDocument := by
  obtain ⟨hkey, hlocal⟩ := document_ok u
  unfold populateDocumentChange at h
  split at h
  · next hno =>
    obtain rfl := Option.some_inj.mp h
    refine ⟨hkey, rfl, ?_⟩
    rw [Bool.and_eq_true] at hno
    have htype : u.document.type = .noDocument := by
      simpa [MutableDocument.isNoDocument] using hno.1
    simp [MutableDocument.isFoundDocument, MutableDocument.invalidDocument, htype]
  · split at h
    · obtain rfl := Option.some_inj.mp h
      exact ⟨hkey, hlocal, rfl⟩
    · cases h

/-- The update of a document in a remote event. -/
theorem key_of_find {updates : List (Update K S A)} {key : K} {u : Update K S A}
    (h : updates.find? (fun u => u.key = key) = some u) : u.key = key := by
  simpa using List.find?_some h

theorem Sound.applyRemoteEvent (h : Sound s) (updates : List (Update K S A)) :
    Sound (s.applyRemoteEvent updates) := by
  have hchanged : ∀ key d, s.populateDocumentChanges updates key = some d →
      d.key = key ∧ d.hasLocalMutations = false := by
    intro key d hd
    obtain ⟨u, hu, hd⟩ := Option.bind_eq_some_iff.mp hd
    obtain ⟨hkey, hlocal, -⟩ := populateDocumentChange_ok hd
    exact ⟨by rw [hkey, key_of_find hu], hlocal⟩
  have hkept : ∀ key o, (s.applyRemoteEvent updates).overlays key = some o →
      (∃ b ∈ s.queue, b.touches key = true ∧ b.batchId = o.largestBatchId) ∧
        o.mutation.precondition = .none := by
    intro key o ho
    unfold LocalStore.applyRemoteEvent at ho
    simp only at ho
    split at ho
    · exact ⟨h.owned key o ho, h.free key o ho⟩
    · split at ho
      · rcases recalculateAndSaveOverlay_eq_some ho with hnew | ho
        · exact hnew
        · exact ⟨h.owned key o ho, h.free key o ho⟩
      · exact ⟨h.owned key o ho, h.free key o ho⟩
  refine ⟨fun key => ?_, fun key => ?_, h.ordered, h.fresh, h.issued,
    fun key o ho => (hkept key o ho).1, fun key o ho => (hkept key o ho).2⟩
  · show ((s.populateDocumentChanges updates key).getD (s.remote key)).key = key
    cases hd : s.populateDocumentChanges updates key with
    | none => exact h.key_remote key
    | some d => exact (hchanged key d hd).1
  · show ((s.populateDocumentChanges updates key).getD (s.remote key)).hasLocalMutations = false
    cases hd : s.populateDocumentChanges updates key with
    | none => exact h.synced key
    | some d => exact (hchanged key d hd).2

omit [DecidableEq K] in
theorem key_toMutation (key : K) (w : Write S A) : (w.toMutation key).key = key := by
  cases w <;> rfl

omit [DecidableEq K] in
theorem issued_writes {writes : List (K × Write S A)} :
    ∀ m ∈ writes.map fun w => w.2.toMutation w.1, ∃ w, m = Write.toMutation m.key w := by
  intro m hm
  obtain ⟨w, -, rfl⟩ := List.mem_map.mp hm
  exact ⟨w.2, by rw [key_toMutation]⟩

theorem Sound.step (h : Sound s) (a : Action K S A) : Sound (s.step a) := by
  cases a with
  | write writes => exact h.writeLocally issued_writes
  | acknowledge version => exact h.acknowledgeBatch version
  | reject => exact h.rejectBatch
  | remoteEvent updates => exact h.applyRemoteEvent updates

theorem sound_run (actions : List (Action K S A)) :
    Sound (Machine.run LocalStore.step start actions) :=
  Machine.run_invariant (fun _ a h => h.step a) actions start sound_start

theorem Batch.touches_of_on {b : Batch K S A} {key : K} (h : b.on key = []) :
    b.touches key = false := by
  rw [Batch.touches, List.any_eq_false]
  exact List.filter_eq_nil_iff.mp h

theorem Sound.overlays_eq_none (h : Sound s) {key : K} (hnone : s.pending key = []) :
    s.overlays key = none := by
  cases ho : s.overlays key with
  | none => rfl
  | some o =>
      obtain ⟨b, hb, htouches, -⟩ := h.owned key o ho
      have hon : b.on key = [] := List.flatMap_eq_nil_iff.mp hnone b hb
      rw [Batch.touches_of_on hon] at htouches
      cases htouches

/-- A document none of whose writes is pending has no overlay, and is shown as it is cached. -/
theorem answered_shown_as_cached (actions : List (Action K S A)) {key : K}
    (hnone : (Machine.run step start actions).pending key = []) :
    (Machine.run step start actions).overlays key = none ∧
    (Machine.run step start actions).getDocument key =
      (Machine.run step start actions).remote key := by
  have hoverlay := (sound_run actions).overlays_eq_none hnone
  refine ⟨hoverlay, ?_⟩
  simp [getDocument, getBaseDocument, hoverlay]

/-- A document is set, and the backend takes it. -/
theorem answered_shown_as_cached_set :
    ∃ actions : List (Action Unit Nat Char),
      actions.length = 2 ∧ (Machine.run step start actions).pending () = [] ∧
      ((Machine.run step start actions).remote ()).isFoundDocument = true ∧
      (Machine.run step start actions).overlays () = none ∧
      (Machine.run step start actions).getDocument () =
        (Machine.run step start actions).remote () :=
  ⟨[.write [((), .setData .empty)], .acknowledge fun _ => 1], rfl, rfl, rfl,
    answered_shown_as_cached _ rfl⟩

end LocalStore

end Firebase.Local
