/-
What the app sees of a document with pending writes.

The documents are shown through their overlays, which ought to be the same as applying the
pending writes one by one.  `Kept` says that the overlay there is is the one that would be
worked out from the queue.  A step can lose that in one way only: nothing comes out, and the
overlay from before stays.  Such a document is `Stale`, and what is shown of it is wrong.

So a run shows the document as its pending writes make it, in every state, exactly if the
document is never stale (`shown_exact`).
-/
import GoodThing.Proofs.LocalStore

namespace Firebase.Local

open Nested

variable {K S A : Type} [LinearOrder S]

/-! ### The effect of more writes -/

namespace Effect

/-- No mutation takes the others back. -/
theorem eq_untouched_of_add {before : Bool} {e : Effect S A} {m : Mutation K S A}
    (h : e.add before m = .untouched) : e = .untouched := by
  unfold add at h
  split at h
  · cases m with
    | set key precondition value => cases h
    | delete key precondition => cases h
    | patch key precondition value fieldMask => cases e <;> cases h
  · exact h

theorem eq_untouched_of_foldl {before : Bool} {ms : List (Mutation K S A)} {e : Effect S A}
    (h : ms.foldl (add before) e = .untouched) : e = .untouched := by
  induction ms generalizing e with
  | nil => exact h
  | cons m ms ih => exact eq_untouched_of_add (ih h)

theorem exists_add_replaced (before : Bool) (value : Option (ObjectValue S A))
    (m : Mutation K S A) : ∃ value', (Effect.replaced value).add before m = .replaced value' := by
  unfold add
  split
  · cases m <;> exact ⟨_, rfl⟩
  · exact ⟨value, rfl⟩

/-- Once the document is replaced, it does not matter whether there was one. -/
theorem foldl_replaced (before before' : Bool) (ms : List (Mutation K S A))
    (value : Option (ObjectValue S A)) :
    ms.foldl (add before) (.replaced value) = ms.foldl (add before') (.replaced value) := by
  induction ms generalizing value with
  | nil => rfl
  | cons m ms ih =>
      obtain ⟨value', hadd⟩ := exists_add_replaced before value m
      have hsame : (Effect.replaced value).add before' m = (Effect.replaced value).add before m :=
        rfl
      rw [List.foldl_cons, List.foldl_cons, hsame, hadd, ih]

/-- Only a write without a precondition replaces the document. -/
theorem of_eq_of_replaced {ms : List (Mutation K S A)}
    (hms : ∀ m ∈ ms, ∃ w, m = Write.toMutation m.key w) {before : Bool}
    {value : Option (ObjectValue S A)} (h : Effect.of before ms = .replaced value)
    (before' : Bool) : Effect.of before' ms = .replaced value := by
  have hfold : ∀ e e' : Effect S A, (∀ value, e ≠ .replaced value) →
      ms.foldl (add before) e = .replaced value → ms.foldl (add before') e' = .replaced value := by
    clear h
    induction ms with
    | nil => exact fun e e' hne h => absurd h (hne value)
    | cons m ms ih =>
        intro e e' hne h
        obtain ⟨⟨w, hw⟩, hrest⟩ := List.forall_mem_cons.mp hms
        generalize m.key = key at hw
        subst hw
        rw [List.foldl_cons] at h ⊢
        cases w with
        | setData data =>
            have hadd : ∀ (b : Bool) (e : Effect S A),
                e.add b ((Write.setData data).toMutation key) = .replaced (some data) :=
              fun _ _ => rfl
            rw [hadd] at h ⊢
            rw [← h, foldl_replaced]
        | deleteDocument =>
            have hadd : ∀ (b : Bool) (e : Effect S A),
                e.add b ((Write.deleteDocument (S := S) (A := A)).toMutation key) =
                  .replaced none := fun _ _ => rfl
            rw [hadd] at h ⊢
            rw [← h, foldl_replaced]
        | mergeData data mask =>
            refine ih hrest _ _ (fun value' => ?_) h
            cases e with
            | untouched => simp [add, Write.toMutation, Mutation.precondition, holds]
            | patched patches mask => simp [add, Write.toMutation, Mutation.precondition, holds]
            | replaced value' => exact absurd rfl (hne value')
        | updateData data mask =>
            refine ih hrest _ _ (fun value' => ?_) h
            unfold add
            split
            · cases e with
              | untouched => simp [Write.toMutation]
              | patched patches mask => simp [Write.toMutation]
              | replaced value' => exact absurd rfl (hne value')
            · exact hne value'
  exact hfold .untouched .untouched (fun _ => by simp) h

/-- Of a document that is replaced only the key is left. -/
theorem view_replaced {d d' : MutableDocument K S A} (hkey : d.key = d'.key)
    (value : Option (ObjectValue S A)) :
    (Effect.replaced value).view d = (Effect.replaced value).view d' := by
  cases value <;> simp [view, hkey]

/-- The overlay has the mask of the view. -/
theorem fieldMask_overlay {e : Effect S A} {key : K} {m : Mutation K S A}
    (h : e.overlay key = some m) (d : MutableDocument K S A) : m.fieldMask = (e.view d).2 := by
  cases e with
  | untouched => cases h
  | patched patches mask =>
      obtain rfl := Option.some_inj.mp h
      rfl
  | replaced value =>
      cases value <;> (obtain rfl := Option.some_inj.mp h; rfl)

theorem exists_replaced_of_not_isPatch {e : Effect S A} {key : K} {m : Mutation K S A}
    (h : e.overlay key = some m) (hm : m.isPatch = false) : ∃ value, e = .replaced value := by
  cases e with
  | untouched => cases h
  | patched patches mask =>
      obtain rfl := Option.some_inj.mp h
      cases hm
  | replaced value => exact ⟨value, rfl⟩

end Effect

variable [DecidableEq K]

namespace LocalStore

/-! ### The writes that are pending -/

theorem mem_pending {s : LocalStore K S A} {key : K} {m : Mutation K S A} :
    m ∈ s.pending key ↔ ∃ b ∈ s.queue, m ∈ b.mutations ∧ m.key = key := by
  simp [pending, Batch.on]

/-- What the pending writes come to on the cached document. -/
def effect (s : LocalStore K S A) (key : K) : Effect S A :=
  Effect.of (s.remote key).isFoundDocument (s.pending key)

/-- The pending writes of a document only set fields, at paths of a set. -/
def PlainOn (s : LocalStore K S A) (allowed : Set (List S)) (key : K) : Prop :=
  ∀ m ∈ s.pending key, m.PlainIn allowed

/-- The overlay is that of the pending writes. -/
def Kept (s : LocalStore K S A) (key : K) : Prop :=
  (s.overlays key).map Overlay.mutation = (s.effect key).overlay key

/-- There is an overlay although no pending write has an effect. -/
def Stale (s : LocalStore K S A) (key : K) : Prop :=
  (s.overlays key).isSome ∧ (s.getDocumentOfBatches key).hasLocalMutations = false

variable {s : LocalStore K S A} {key : K} {allowed : Set (List S)}

theorem Sound.issued_pending (h : Sound s) :
    ∀ m ∈ s.pending key, ∃ w, m = Write.toMutation m.key w := by
  intro m hm
  obtain ⟨b, hb, hmem, -⟩ := mem_pending.mp hm
  exact h.issued b hb m hmem

omit [DecidableEq K] in
theorem unversioned_of_issued {m : Mutation K S A} (h : ∃ w, m = Write.toMutation m.key w) :
    m.Unversioned := by
  obtain ⟨w, hw⟩ := h
  rw [hw]
  exact unversioned_toMutation m.key w

theorem Sound.unversioned (h : Sound s) : ∀ m ∈ s.pending key, m.Unversioned :=
  fun m hm => unversioned_of_issued (h.issued_pending m hm)

theorem Sound.getDocumentOfBatches_view (h : Sound s) (key : K) :
    s.getDocumentOfBatches key = ((s.effect key).view (s.remote key)).1 := by
  rw [getDocumentOfBatches_eq s (h.key_remote key), applyAll_eq h.unversioned]
  rfl

theorem PlainOn.plainIn_effect (hallowed : Independent allowed) (h : s.PlainOn allowed key) :
    (s.effect key).PlainIn allowed :=
  Effect.plainIn_of hallowed h _

/-- What is shown then. -/
theorem Kept.getDocument_eq (hallowed : Independent allowed) (h : Sound s)
    (hplain : s.PlainOn allowed key) (hkept : s.Kept key) :
    s.getDocument key = s.getDocumentOfBatches key := by
  have he := hplain.plainIn_effect hallowed
  rw [h.getDocumentOfBatches_view]
  unfold getDocument getBaseDocument
  unfold Kept at hkept
  cases ho : s.overlays key with
  | none =>
      rw [ho, Option.map_none] at hkept
      rw [Effect.overlay_eq_none.mp hkept.symm]
      rfl
  | some o =>
      rw [ho, Option.map_some] at hkept
      cases hpatch : o.mutation.isPatch with
      | true =>
          simp only [hpatch, if_true]
          refine Effect.apply_overlay he ?_ _
          rw [h.key_remote, ← hkept]
      | false =>
          obtain ⟨value, hvalue⟩ := Effect.exists_replaced_of_not_isPatch hkept.symm hpatch
          have hkey : (MutableDocument.invalidDocument key : MutableDocument K S A).key =
              (s.remote key).key := (h.key_remote key).symm
          simp only [hpatch, Bool.false_eq_true, if_false]
          rw [hvalue, ← Effect.view_replaced hkey value, ← hvalue]
          exact Effect.apply_overlay he hkept.symm _

/-- What is shown through an overlay has local writes. -/
theorem Sound.not_stale (h : Sound s) (hshown : s.getDocument key = s.getDocumentOfBatches key) :
    ¬ s.Stale key := by
  rintro ⟨hsome, hlocal⟩
  obtain ⟨o, ho⟩ := Option.isSome_iff_exists.mp hsome
  have hfree := h.free key o ho
  rw [← hshown] at hlocal
  unfold getDocument at hlocal
  rw [ho] at hlocal
  have hlocal : (applyOn [o.mutation] (s.getBaseDocument key, some ∅)).1.hasLocalMutations =
      false := hlocal
  have hvalid := (applyOn_local.mp hlocal).2 o.mutation List.mem_cons_self
  rw [hfree] at hvalid
  cases hvalid

/-! ### What a step does to the overlay -/

/-- The overlay was worked out, and is kept unless the document is stale. -/
theorem Sound.kept_of_save (h : Sound s) {id : Nat} {old : Option (Overlay K S A)}
    (hsave : s.overlays key = saveOverlay id ((s.effect key).overlay key) old)
    (hstale : ¬ s.Stale key) : s.Kept key := by
  unfold Kept
  cases ho : (s.effect key).overlay key with
  | some m =>
      rw [hsave, ho]
      rfl
  | none =>
      cases hs : s.overlays key with
      | none => rfl
      | some o =>
          refine absurd ⟨by rw [hs]; rfl, ?_⟩ hstale
          rw [h.getDocumentOfBatches_view, Effect.overlay_eq_none.mp ho]
          exact h.synced key

/-- The overlay that is worked out is that of the pending writes. -/
theorem exists_recalculate (hallowed : Independent allowed)
    (hunversioned : ∀ m ∈ s.pending key, m.Unversioned) (hplain : s.PlainOn allowed key)
    {d : MutableDocument K S A} (hkey : d.key = key) (hlocal : d.hasLocalMutations = false) :
    ∃ id, s.recalculateAndSaveOverlay key d =
      saveOverlay id ((Effect.of d.isFoundDocument (s.pending key)).overlay key)
        (s.overlays key) := by
  have hpending : ((s.queue.filter fun b => b.touches key).flatMap fun b => b.on d.key) =
      s.pending key := by rw [hkey, flatMap_touches, pending]
  unfold recalculateAndSaveOverlay
  simp only
  cases hlast : (s.queue.filter fun b => b.touches key).getLast? with
  | none =>
      rw [List.getLast?_eq_none_iff.mp hlast] at hpending
      rw [← hpending]
      exact ⟨0, rfl⟩
  | some last =>
      refine ⟨last.batchId, ?_⟩
      have hview : applyOn (s.pending key) (d, some ∅) =
          (Effect.of d.isFoundDocument (s.pending key)).view d := applyAll_eq hunversioned d
      have he := Effect.plainIn_of hallowed hplain d.isFoundDocument
      rw [foldl_batches, hpending, hview, Effect.calculateOverlayMutation_view he hlocal, hkey]

/-- The document a write finds. -/
theorem Kept.overlayedDocument_eq (hallowed : Independent allowed) (h : Sound s)
    (hplain : s.PlainOn allowed key) (hkept : s.Kept key) :
    s.overlayedDocument key = (s.effect key).view (s.remote key) := by
  unfold overlayedDocument
  unfold Kept at hkept
  cases ho : s.overlays key with
  | none =>
      rw [ho, Option.map_none] at hkept
      rw [Effect.overlay_eq_none.mp hkept.symm]
      rfl
  | some o =>
      rw [ho, Option.map_some] at hkept
      refine Prod.ext ?_ (Effect.fieldMask_overlay hkept.symm _)
      refine Effect.apply_overlay (hplain.plainIn_effect hallowed) ?_ none
      rw [h.key_remote, ← hkept]

theorem remote_writeLocally (s : LocalStore K S A) (ms : List (Mutation K S A)) :
    (s.writeLocally ms).remote = s.remote := by
  unfold LocalStore.writeLocally
  split <;> rfl

theorem pending_writeLocally (s : LocalStore K S A) (ms : List (Mutation K S A)) (key : K) :
    (s.writeLocally ms).pending key = s.pending key ++ ms.filter fun m => m.key = key := by
  unfold LocalStore.writeLocally
  split
  · next hempty =>
    rw [List.isEmpty_iff.mp hempty, List.filter_nil, List.append_nil]
  · show (s.queue ++ [Batch.mk s.nextBatchId ms]).flatMap (fun b => b.on key) = _
    rw [List.flatMap_append, List.flatMap_singleton]
    rfl

theorem effect_writeLocally (s : LocalStore K S A) (ms : List (Mutation K S A)) (key : K) :
    (s.writeLocally ms).effect key =
      (ms.filter fun m => m.key = key).foldl (Effect.add (s.remote key).isFoundDocument)
        (s.effect key) := by
  rw [effect, pending_writeLocally, remote_writeLocally, effect, Effect.of, Effect.of,
    List.foldl_append]

theorem overlays_writeLocally {ms : List (Mutation K S A)}
    (htouches : (Batch.mk s.nextBatchId ms).touches key = true) :
    (s.writeLocally ms).overlays key =
      saveOverlay s.nextBatchId
        ((Batch.mk s.nextBatchId ms).applyToLocalDocumentSet (s.overlayedDocument key).1
          (s.overlayedDocument key).2) (s.overlays key) := by
  unfold LocalStore.writeLocally
  split
  · next hempty =>
    rw [List.isEmpty_iff.mp hempty] at htouches
    cases htouches
  · exact if_pos htouches

theorem overlays_writeLocally_of_not {ms : List (Mutation K S A)}
    (htouches : (Batch.mk s.nextBatchId ms).touches key = false) :
    (s.writeLocally ms).overlays key = s.overlays key := by
  unfold LocalStore.writeLocally
  split
  · rfl
  · exact if_neg (by simp [htouches])

theorem Kept.writeLocally (hallowed : Independent allowed) (h : Sound s)
    (hplain : s.PlainOn allowed key) (hkept : s.Kept key) {ms : List (Mutation K S A)}
    (hms : ∀ m ∈ ms, ∃ w, m = Write.toMutation m.key w)
    (hnew : (s.writeLocally ms).PlainOn allowed key) : (s.writeLocally ms).Kept key := by
  have heffect := effect_writeLocally s ms key
  cases htouches : (Batch.mk s.nextBatchId ms).touches key with
  | false =>
      have hnone : (ms.filter fun m => m.key = key) = [] := Batch.on_eq_nil htouches
      rw [hnone, List.foldl_nil] at heffect
      unfold Kept at hkept ⊢
      rw [overlays_writeLocally_of_not htouches, heffect, hkept]
  | true =>
      have hkey := h.key_overlayedDocument key
      have hunversioned : ∀ m ∈ ms.filter fun m => m.key = key, m.Unversioned :=
        fun m hm => unversioned_of_issued (hms m (List.mem_of_mem_filter hm))
      have hview : (Batch.mk s.nextBatchId ms).applyToLocalView (s.overlayedDocument key).1
          (s.overlayedDocument key).2 = ((s.writeLocally ms).effect key).view (s.remote key) := by
        rw [Batch.applyToLocalView_eq, hkey, Prod.eta, hkept.overlayedDocument_eq hallowed h hplain,
          heffect]
        exact foldl_applyToLocalView _ hunversioned _ _
      have hoverlay := overlays_writeLocally htouches
      rw [Batch.applyToLocalDocumentSet_eq (by rwa [hkey]), hview,
        Effect.calculateOverlayMutation_view (hnew.plainIn_effect hallowed) (h.synced key),
        h.key_remote] at hoverlay
      unfold Kept at hkept ⊢
      rw [hoverlay]
      cases ho : ((s.writeLocally ms).effect key).overlay key with
      | some m => rfl
      | none =>
          -- Then there was nothing before.
          rw [heffect] at ho
          have hbefore := Effect.eq_untouched_of_foldl (Effect.overlay_eq_none.mp ho)
          rw [hbefore] at hkept
          exact hkept

theorem Kept.removeBatch (hallowed : Independent allowed) (h : Sound s) {batch : Batch K S A}
    {rest : List (Batch K S A)} (hqueue : s.queue = batch :: rest)
    (hnew : (s.removeBatch batch rest).PlainOn allowed key)
    (hkept : batch.touches key = false → s.Kept key)
    (hstale : ¬ (s.removeBatch batch rest).Stale key) : (s.removeBatch batch rest).Kept key := by
  have hsound := h.removeBatch hqueue
  cases htouches : batch.touches key with
  | true =>
      -- The batch is gone from the queue when the overlay is worked out.
      obtain ⟨id, hsave⟩ := exists_recalculate
        (s := { s with
          queue := rest
          overlays := fun key =>
            (s.overlays key).filter fun o => o.largestBatchId ≠ batch.batchId })
        hallowed hsound.unversioned hnew (h.key_remote key) (h.synced key)
      refine hsound.kept_of_save (Eq.trans ?_ hsave) hstale
      exact if_pos htouches
  | false =>
      have hpending : (s.removeBatch batch rest).pending key = s.pending key := by
        show (rest.flatMap fun b => b.on key) = s.queue.flatMap fun b => b.on key
        rw [hqueue, List.flatMap_cons, Batch.on_eq_nil htouches, List.nil_append]
      have hoverlay : (s.removeBatch batch rest).overlays key = s.overlays key := by
        refine (if_neg (by simp [htouches])).trans ?_
        show (s.overlays key).filter (fun o => decide (o.largestBatchId ≠ batch.batchId)) =
          s.overlays key
        cases ho : s.overlays key with
        | none => simp
        | some o =>
            obtain ⟨b, hb, hown, hid⟩ := h.owned key o ho
            have hne : o.largestBatchId ≠ batch.batchId := by
              rw [hqueue] at hb
              rcases List.mem_cons.mp hb with rfl | hb
              · rw [htouches] at hown
                cases hown
              · have hordered := h.ordered
                rw [hqueue, List.map_cons, List.pairwise_cons] at hordered
                have hlt := hordered.1 b.batchId (List.mem_map_of_mem hb)
                omega
            simp [hne]
      have hkept := hkept htouches
      unfold Kept effect at hkept ⊢
      rw [hpending, hoverlay]
      exact hkept

/-- Where the event has no document to cache. -/
theorem applyRemoteEvent_unchanged {updates : List (Update K S A)}
    (h : s.populateDocumentChanges updates key = none) :
    (s.applyRemoteEvent updates).remote key = s.remote key ∧
      (s.applyRemoteEvent updates).overlays key = s.overlays key := by
  constructor
  · show (s.populateDocumentChanges updates key).getD (s.remote key) = s.remote key
    rw [h]
    rfl
  · unfold LocalStore.applyRemoteEvent
    simp only
    split
    · rfl
    · rw [h]
      rfl

/-- Only the existence of the cached document has a part in the overlay, and none if the overlay
replaces it. -/
theorem Kept.applyRemoteEvent (hallowed : Independent allowed) (h : Sound s)
    (hplain : s.PlainOn allowed key) (hkept : s.Kept key) {updates : List (Update K S A)}
    (hstale : ¬ (s.applyRemoteEvent updates).Stale key) :
    (s.applyRemoteEvent updates).Kept key := by
  have hsound := h.applyRemoteEvent updates
  cases hd : s.populateDocumentChanges updates key with
  | none =>
      obtain ⟨hremote, hoverlay⟩ := applyRemoteEvent_unchanged hd
      unfold Kept effect at hkept ⊢
      rw [hremote, hoverlay]
      exact hkept
  | some d =>
      obtain ⟨u, hu, hchange⟩ := Option.bind_eq_some_iff.mp hd
      obtain ⟨-, -, hfound⟩ := populateDocumentChange_ok hchange
      obtain ⟨hukey, hulocal⟩ := document_ok u
      have hremote : (s.applyRemoteEvent updates).remote key = d := by
        show (s.populateDocumentChanges updates key).getD (s.remote key) = d
        rw [hd]
        rfl
      have heffect : (s.applyRemoteEvent updates).effect key =
          Effect.of u.document.isFoundDocument (s.pending key) := by
        rw [effect, hremote, hfound]
        rfl
      have hoverlay : (s.applyRemoteEvent updates).overlays key =
          if u.document.isFoundDocument != (s.remote key).isFoundDocument &&
            (s.overlays key).all (fun o => o.mutation.isPatch) then
            ({ s with remote := (s.applyRemoteEvent updates).remote } : LocalStore K S A)
              |>.recalculateAndSaveOverlay key u.document
          else s.overlays key := by
        unfold LocalStore.applyRemoteEvent
        simp only [hu, hd, Option.isSome_some, Bool.true_and]
      split at hoverlay
      · obtain ⟨id, hsave⟩ := exists_recalculate
          (s := { s with remote := (s.applyRemoteEvent updates).remote })
          hallowed h.unversioned hplain (hukey.trans (key_of_find hu)) hulocal
        have hsaved : (s.applyRemoteEvent updates).overlays key =
            saveOverlay id (((s.applyRemoteEvent updates).effect key).overlay key)
              (s.overlays key) := by
          rw [hoverlay, heffect]
          exact hsave
        exact hsound.kept_of_save hsaved hstale
      · next hcond =>
        have hsame : (s.applyRemoteEvent updates).effect key = s.effect key := by
          rw [heffect]
          by_cases hexists : u.document.isFoundDocument = (s.remote key).isFoundDocument
          · rw [hexists]
            rfl
          · -- The overlay is there and is no patch.
            cases ho : s.overlays key with
            | none => simp [ho, hexists] at hcond
            | some o =>
                have hpatch : o.mutation.isPatch = false := by
                  simpa [ho, hexists] using hcond
                have hmutation : (s.effect key).overlay key = some o.mutation := by
                  rw [← hkept, ho]
                  rfl
                obtain ⟨value, hvalue⟩ :=
                  Effect.exists_replaced_of_not_isPatch hmutation hpatch
                rw [hvalue]
                exact Effect.of_eq_of_replaced h.issued_pending hvalue _
        unfold Kept at hkept ⊢
        rw [hoverlay, hsame]
        exact hkept

/-! ### Runs -/

/-- The writes of an action to a document only set fields, at paths of a set. -/
def Action.PlainOn (allowed : Set (List S)) (key : K) : Action K S A → Prop
  | .write writes => ∀ w ∈ writes, w.1 = key → (w.2.toMutation w.1).PlainIn allowed
  | _ => True

theorem PlainOn.of_queue {s' : LocalStore K S A} (h : s.PlainOn allowed key)
    (hqueue : ∀ b ∈ s'.queue, b ∈ s.queue) : s'.PlainOn allowed key := by
  intro m hm
  obtain ⟨b, hb, hmem⟩ := mem_pending.mp hm
  exact h m (mem_pending.mpr ⟨b, hqueue b hb, hmem⟩)

theorem PlainOn.removeBatch (h : s.PlainOn allowed key) {batch : Batch K S A}
    {rest : List (Batch K S A)} (hqueue : s.queue = batch :: rest) :
    (s.removeBatch batch rest).PlainOn allowed key :=
  h.of_queue fun _ hb => hqueue ▸ List.mem_cons_of_mem batch hb

theorem PlainOn.write (h : s.PlainOn allowed key) {writes : List (K × Write S A)}
    (hplain : (Action.write writes).PlainOn allowed key) :
    (s.step (.write writes)).PlainOn allowed key := by
  intro m hm
  rw [step, pending_writeLocally, List.mem_append, List.mem_filter] at hm
  rcases hm with hm | ⟨hm, hkey⟩
  · exact h m hm
  · obtain ⟨w, hw, rfl⟩ := List.mem_map.mp hm
    rw [key_toMutation] at hkey
    exact hplain w hw (by simpa using hkey)

theorem PlainOn.step (h : s.PlainOn allowed key) {a : Action K S A}
    (hplain : a.PlainOn allowed key) : (s.step a).PlainOn allowed key := by
  cases a with
  | write writes => exact h.write hplain
  | acknowledge version =>
      show (s.acknowledgeBatch version).PlainOn allowed key
      unfold acknowledgeBatch
      split
      · exact h
      · next batch rest hqueue => exact PlainOn.removeBatch (h.of_queue fun _ hb => hb) hqueue
  | reject =>
      show s.rejectBatch.PlainOn allowed key
      unfold rejectBatch
      split
      · exact h
      · next batch rest hqueue => exact h.removeBatch hqueue
  | remoteEvent updates => exact h.of_queue fun _ hb => hb

/-- A step keeps the overlay unless it leaves the document stale. -/
theorem Kept.step (hallowed : Independent allowed) (h : Sound s) (hplain : s.PlainOn allowed key)
    (hkept : s.Kept key) {a : Action K S A} (ha : a.PlainOn allowed key)
    (hstale : ¬ (s.step a).Stale key) : (s.step a).Kept key := by
  have hnew := hplain.step ha
  cases a with
  | write writes =>
      exact hkept.writeLocally hallowed h hplain issued_writes hnew
  | acknowledge version =>
      cases hqueue : s.queue with
      | nil =>
          have hstep : s.step (.acknowledge version) = s := by
            simp [LocalStore.step, acknowledgeBatch, hqueue]
          rw [hstep]
          exact hkept
      | cons batch rest =>
          have hstep : s.step (.acknowledge version) =
              ({ s with
                remote := fun key =>
                  if batch.touches key then applyBatchResult batch version (s.remote key)
                  else s.remote key } : LocalStore K S A).removeBatch batch rest := by
            simp only [LocalStore.step, acknowledgeBatch, hqueue]
          rw [hstep] at hnew hstale ⊢
          refine Kept.removeBatch hallowed (h.applied batch version) hqueue hnew ?_ hstale
          intro htouches
          show _ = (Effect.of (if batch.touches key then
            applyBatchResult batch version (s.remote key)
            else s.remote key).isFoundDocument (s.pending key)).overlay key
          rw [if_neg (by simp [htouches])]
          exact hkept
  | reject =>
      cases hqueue : s.queue with
      | nil =>
          have hstep : s.step .reject = s := by simp [LocalStore.step, rejectBatch, hqueue]
          rw [hstep]
          exact hkept
      | cons batch rest =>
          have hstep : s.step .reject = s.removeBatch batch rest := by
            simp only [LocalStore.step, rejectBatch, hqueue]
          rw [hstep] at hnew hstale ⊢
          exact Kept.removeBatch hallowed h hqueue hnew (fun _ => hkept) hstale
  | remoteEvent updates => exact hkept.applyRemoteEvent hallowed h hplain hstale

/-- A run shows a document as its pending writes make it, in every state, exactly if the document
is never stale. -/
theorem shown_exact (hallowed : Independent allowed) {actions : List (Action K S A)}
    (hplain : ∀ a ∈ actions, a.PlainOn allowed key) :
    Machine.Always LocalStore.step (fun s => s.getDocument key = s.getDocumentOfBatches key)
        start actions ↔
      Machine.Always LocalStore.step (fun s => ¬ s.Stale key) start actions := by
  constructor
  · intro hshown pre hpre
    exact (sound_run pre).not_stale (hshown pre hpre)
  · intro hnever
    have hguarded : Machine.Guarded LocalStore.step
        (fun s a => a.PlainOn allowed key ∧ ¬ (s.step a).Stale key) start actions := by
      intro pre a hpre
      have ha : a ∈ pre ++ [a] := List.mem_append_right pre List.mem_cons_self
      refine ⟨hplain a (hpre.subset ha), ?_⟩
      have hstale := hnever (pre ++ [a]) hpre
      rw [Machine.run_append] at hstale
      exact hstale
    have hkept := Machine.always_of_guarded
      (I := fun s : LocalStore K S A => Sound s ∧ s.PlainOn allowed key ∧ s.Kept key)
      (fun s a ⟨hsound, hplain, hkept⟩ ⟨ha, hstale⟩ =>
        ⟨hsound.step a, hplain.step ha, hkept.step hallowed hsound hplain ha hstale⟩)
      actions start ⟨sound_start, by simp [PlainOn, pending, start], rfl⟩ hguarded
    exact hkept.mono fun s ⟨hsound, hplain, hkept⟩ =>
      hkept.getDocument_eq hallowed hsound hplain

/-- A document is updated and, before the backend has answered that, deleted there: the update has
no effect any more, but is still shown. -/
theorem shown_exact_deleted :
    ∃ value : ObjectValue Nat Char, ¬ Machine.Always LocalStore.step
      (fun s => s.getDocument () = s.getDocumentOfBatches ()) start
      [.remoteEvent [⟨(), 1, some value⟩], .write [((), .updateData value {[1]})],
        .remoteEvent [⟨(), 2, none⟩]] := by
  let value : ObjectValue Nat Char :=
    ⟨[(1, .leaf 'a')], .node (List.pairwise_singleton _ _) (by simp [Sorted.leaf])⟩
  have hget : (value.get [1]).isSome := by simp [value, ObjectValue.get, Nested.get, find]
  have hallowed : Independent ({[1]} : Set (List Nat)) := ⟨by simp, by simp⟩
  refine ⟨value, ?_⟩
  rw [shown_exact hallowed (by simp [Action.PlainOn, Write.toMutation, Mutation.PlainIn, hget])]
  intro hnever
  exact hnever _ (List.prefix_refl _) ⟨rfl, rfl⟩

end LocalStore

end Firebase.Local
