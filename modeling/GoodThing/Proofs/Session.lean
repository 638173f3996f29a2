/-
A query's listener over all its events.

Three things are kept by every event.  The documents of the view are documents of the local
store, up to changes that are held back until the server confirms them; this is why a
second round never asks for a third.  The engine resolves precisely the documents the view
has in limbo.  And the caller has the view's documents, from the first event raised on.

The one assertion that can fail is about the server: that it reports a document as modified
only if it had reported it as added.
-/
import GoodThing.Proofs.QueryListener

namespace Firebase

open Machine ViewDocumentChanges

variable {K V R : Type} [LinearOrder R] {q : Query K V R}

theorem mem_of_mem_cut {docs : DocumentSet q} {d : Document K V} (h : d ∈ cut docs) : d ∈ docs := by
  unfold cut at h
  cases hlimit : q.limitType with
  | none => rwa [hlimit] at h
  | first =>
      rw [hlimit] at h
      exact List.mem_of_mem_take h
  | last =>
      rw [hlimit] at h
      exact List.mem_of_mem_drop h

variable [LinearOrder K]

/-! ### The listener -/

/-- What a listener can do with a snapshot. -/
theorem QueryListener.onViewSnapshot_cases (l : QueryListener q) {snapshot : ViewSnapshot q}
    (h : ¬ (snapshot.documentChanges.isEmpty && !snapshot.syncStateChanged) = true) :
    (l.raisedInitialEvent = false ∧ l.onViewSnapshot snapshot =
      .ok ({ l with snapshot := some (l.strip snapshot), raisedInitialEvent := true },
        some (l.strip snapshot).fromInitialDocuments)) ∨
    (l.raisedInitialEvent = true ∧ l.onViewSnapshot snapshot =
      .ok ({ l with snapshot := some (l.strip snapshot) }, some (l.strip snapshot))) ∨
    ((l.raisedInitialEvent = true → (l.strip snapshot).documentChanges = []) ∧
      l.onViewSnapshot snapshot = .ok ({ l with snapshot := some (l.strip snapshot) }, none)) := by
  unfold onViewSnapshot
  rw [if_neg h]
  cases hraised : l.raisedInitialEvent with
  | false =>
      rw [if_pos (by simp)]
      by_cases hraise : l.shouldRaiseInitialEvent (l.strip snapshot) l.onlineState = true
      · rw [if_pos hraise]
        exact Or.inl ⟨rfl, rfl⟩
      · rw [if_neg hraise]
        exact Or.inr (Or.inr ⟨by simp, rfl⟩)
  | true =>
      rw [if_neg (by simp)]
      by_cases hraise : l.shouldRaiseEvent (l.strip snapshot) = true
      · rw [if_pos hraise]
        exact Or.inr (Or.inl ⟨rfl, rfl⟩)
      · rw [if_neg hraise]
        refine Or.inr (Or.inr ⟨fun _ => ?_, rfl⟩)
        unfold shouldRaiseEvent at hraise
        by_contra hne
        rw [if_pos (by simpa using hne)] at hraise
        exact hraise rfl

/-- Stripping leaves the documents, old and new, and the changes that are not of metadata. -/
theorem QueryListener.raised_strip (l : QueryListener q) {old new : DocumentSet q}
    {changes : Keyed.Set (changeOrder q)} {snapshot : ViewSnapshot q}
    (h : View.Snapshot old new changes snapshot)
    (hdescribes : ∀ k, Describes (old.find? k) (new.find? k) (changes.find? k)) :
    ViewSnapshot.Raised old new changes (l.strip snapshot) ∧ (l.strip snapshot).documents = new := by
  unfold strip
  by_cases hoption : l.options.includeDocumentMetadataChanges = true
  · rw [if_pos hoption]
    exact ⟨⟨h.oldDocuments, Or.inl h.documentChanges, hdescribes⟩, h.documents⟩
  · rw [if_neg hoption, h.documentChanges]
    exact ⟨⟨h.oldDocuments, Or.inr rfl, hdescribes⟩, h.documents⟩

/-- Without changes there is nothing to replay. -/
theorem ViewSnapshot.documentChangeList_nil {snapshot : ViewSnapshot q}
    (h : snapshot.documentChanges = []) : snapshot.documentChangeList = .ok [] := by
  unfold documentChangeList forEachChange
  rw [Bool.false_and, if_neg (by simp), h]
  by_cases hempty : snapshot.oldDocuments.isEmpty = true
  · rw [if_pos hempty]
    rfl
  · rw [if_neg hempty]
    rfl

namespace Session

/-- What the caller has been handed: certain documents, once there has been an event. -/
structure Handed (s : Session q) (docs : DocumentSet q) : Prop where
  shown : s.shown = if s.listener.raisedInitialEvent then (docs.map (data q)).list else []
  known (k : K) : s.known k =
    if s.listener.raisedInitialEvent then (docs.find? k).map Document.value else none
  once : ∀ cs ∈ s.raised, (cs.map fun c => c.document.key).Nodup

/-- The caller has what the view has. -/
structure Told (s : Session q) : Prop where
  handed : Handed s s.view.documentSet
  snapshot : ∀ snapshot ∈ s.listener.snapshot, snapshot.documents = s.view.documentSet

/-- The event and the listener aside, nothing changes. -/
def Same (s t : Session q) : Prop :=
  t.store = s.store ∧ t.view = s.view ∧ t.limboDocumentRefs = s.limboDocumentRefs

/-- One more event, on top of the others. -/
theorem handed_raised {s : Session q} {old new : DocumentSet q} {l : QueryListener q}
    {cs : List (DocumentChange K V)} (hreplays : ViewSnapshot.Replays old new cs)
    (hshown : s.shown = (old.map (data q)).list)
    (hknown : ∀ k, s.known k = (old.find? k).map Document.value)
    (honce : ∀ cs ∈ s.raised, (cs.map fun c => c.document.key).Nodup)
    (hl : l.raisedInitialEvent = true) :
    Handed { s with listener := l, raised := s.raised ++ [cs] } new := by
  refine ⟨?_, ?_, ?_⟩
  · show (s.raised ++ [cs]).flatten.foldl DocumentChange.replay [] =
      if l.raisedInitialEvent then _ else _
    rw [hl, if_pos rfl, List.flatten_append, List.foldl_append, List.flatten_singleton]
    show cs.foldl DocumentChange.replay s.shown = _
    rw [hshown, hreplays.byPosition]
  · intro k
    show (s.raised ++ [cs]).flatten.foldl DocumentChange.record (fun _ => none) k =
      if l.raisedInitialEvent then _ else _
    rw [hl, if_pos rfl, List.flatten_append, List.foldl_append, List.flatten_singleton]
    exact hreplays.byKey s.known hknown k
  · intro cs' hcs'
    rcases List.mem_append.mp hcs' with hmem | hmem
    · exact honce cs' hmem
    · rw [List.mem_singleton.mp hmem]
      exact hreplays.once

/-- Without another event, what was handed over is still right if nothing has changed. -/
theorem handed_silent {s : Session q} {old new : DocumentSet q} {l : QueryListener q}
    (h : Handed s old) (hl : l.raisedInitialEvent = s.listener.raisedInitialEvent)
    (hsame : s.listener.raisedInitialEvent = true → ViewSnapshot.Replays old new []) :
    Handed { s with listener := l } new := by
  refine ⟨?_, ?_, h.once⟩
  · show s.shown = if l.raisedInitialEvent then _ else _
    rw [h.shown, hl]
    by_cases hraised : s.listener.raisedInitialEvent = true
    · rw [if_pos hraised, if_pos hraised]
      exact (hsame hraised).byPosition
    · rw [if_neg hraised, if_neg hraised]
  · intro k
    show s.known k = if l.raisedInitialEvent then _ else _
    rw [h.known, hl]
    by_cases hraised : s.listener.raisedInitialEvent = true
    · rw [if_pos hraised, if_pos hraised]
      exact (hsame hraised).byKey _ (fun _ => rfl) k
    · rw [if_neg hraised, if_neg hraised]

/-- A first event hands over all the documents. -/
theorem raise_initial {s : Session q} {l : QueryListener q} {snapshot : ViewSnapshot q}
    {old : DocumentSet q} (hl : l.raisedInitialEvent = true)
    (hdocs : snapshot.documents = s.view.documentSet)
    (hcached : ∀ snapshot ∈ l.snapshot, snapshot.documents = s.view.documentSet)
    (hraised : s.listener.raisedInitialEvent = false) (h : Handed s old) :
    ∃ t, s.raise (l, some snapshot.fromInitialDocuments) = .ok t ∧ Same s t ∧ Told t := by
  obtain ⟨cs, hcs, hreplays⟩ := snapshot.replays_initial
  rw [hdocs] at hreplays
  have hshown : s.shown = [] := by
    rw [h.shown, hraised]
    rfl
  have hknown : ∀ k, s.known k = none := by
    intro k
    rw [h.known, hraised]
    rfl
  refine ⟨{ s with listener := l, raised := s.raised ++ [cs] }, ?_, ⟨rfl, rfl, rfl⟩,
    handed_raised hreplays hshown hknown h.once hl, hcached⟩
  unfold raise
  simp only [hcs]
  rfl

/-- What the view reports reaches the caller, or there is nothing in it for the caller. -/
theorem onViewSnapshot_ok {s : Session q} {old : DocumentSet q}
    {changes : Keyed.Set (changeOrder q)} {snapshot : ViewSnapshot q}
    (h : View.Snapshot old s.view.documentSet changes snapshot)
    (hdescribes : ∀ k, Describes (old.find? k) (s.view.documentSet.find? k) (changes.find? k))
    (hhanded : Handed s old) :
    ∃ t, s.onViewSnapshot (some snapshot) = .ok t ∧ Same s t ∧ Told t := by
  obtain ⟨hstripped, hdocs⟩ := s.listener.raised_strip h hdescribes
  obtain ⟨cs, hcs, hreplays⟩ := ViewSnapshot.documentChangeList_ok hstripped
  have hcached : ∀ cached ∈ some (s.listener.strip snapshot),
      cached.documents = s.view.documentSet := by
    intro cached hmem
    obtain rfl := Option.some_inj.mp hmem
    exact hdocs
  unfold onViewSnapshot
  simp only
  obtain ⟨hraised, hevent⟩ | ⟨hraised, hevent⟩ | ⟨hnil, hevent⟩ :=
    s.listener.onViewSnapshot_cases h.some
  · rw [hevent]
    exact raise_initial rfl hdocs hcached hraised hhanded
  · rw [hevent]
    have hshown := hhanded.shown
    have hknown := hhanded.known
    simp only [hraised, if_true] at hshown hknown
    refine ⟨{ s with
        listener := { s.listener with snapshot := some (s.listener.strip snapshot) }
        raised := s.raised ++ [cs] }, ?_, ⟨rfl, rfl, rfl⟩,
      handed_raised hreplays hshown hknown hhanded.once hraised, hcached⟩
    show ((s.listener.strip snapshot).documentChangeList >>= _) = _
    rw [hcs]
    rfl
  · rw [hevent]
    refine ⟨{ s with
        listener := { s.listener with snapshot := some (s.listener.strip snapshot) } }, rfl,
      ⟨rfl, rfl, rfl⟩, handed_silent hhanded rfl ?_, hcached⟩
    -- Nothing is left of the changes, so the documents are as before.
    intro hraised
    rw [ViewSnapshot.documentChangeList_nil (hnil hraised)] at hcs
    obtain rfl := Except.ok.inj hcs
    exact hreplays

/-- Going offline may raise the first event, from the last snapshot there was. -/
theorem raise_onOnlineStateChanged_ok {s : Session q} (h : Told s) (onlineState : OnlineState) :
    ∃ t, s.raise (s.listener.onOnlineStateChanged onlineState) = .ok t ∧ Same s t ∧ Told t := by
  unfold QueryListener.onOnlineStateChanged
  cases hsnapshot : s.listener.snapshot with
  | none =>
      refine ⟨_, rfl, ⟨rfl, rfl, rfl⟩, ⟨h.handed.shown, h.handed.known, h.handed.once⟩, ?_⟩
      intro snapshot hmem
      exact h.snapshot snapshot (hsnapshot.trans hmem)
  | some snapshot =>
      simp only
      by_cases hraise : (!s.listener.raisedInitialEvent &&
          s.listener.shouldRaiseInitialEvent snapshot onlineState) = true
      · rw [if_pos hraise]
        have hraised : s.listener.raisedInitialEvent = false := by
          rw [Bool.and_eq_true, Bool.not_eq_true'] at hraise
          exact hraise.1
        refine raise_initial rfl (h.snapshot snapshot hsnapshot) ?_ hraised h.handed
        intro cached hmem
        exact h.snapshot cached (hsnapshot.trans hmem)
      · rw [if_neg hraise]
        refine ⟨_, rfl, ⟨rfl, rfl, rfl⟩, ⟨h.handed.shown, h.handed.known, h.handed.once⟩, ?_⟩
        intro cached hmem
        exact h.snapshot cached (hsnapshot.trans hmem)

end Session

/-! ### The local store -/

/-- A document of the view is that of the local store, or waits for it. -/
def Agrees (q : Query K V R) (store : DocumentMap K V) (d : Document K V) : Prop :=
  ∃ l, store.find? d.key = some l ∧ q.matchesDocument l = true ∧
    (d.value = l.value ∨ shouldWaitForSyncedDocument l d = true)

theorem find?_stored (store changes : DocumentMap K V) (k : K) :
    (changes.list.foldl Keyed.Set.insert store).find? k = (changes.find? k).or (store.find? k) :=
  Keyed.Set.find?_foldl_insert k changes.list store changes.nodup

theorem find?_executeQuery (store : DocumentMap K V) (k : K) :
    (executeQuery q store).find? k = (store.find? k).filter q.matchesDocument :=
  Keyed.Set.find?_filter store q.matchesDocument k

variable [DecidableEq V]

/-- After a change the view has the new document, or one that agrees with it. -/
theorem agrees_settled {v : View q} {store : DocumentMap K V} {oldDoc : Option (Document K V)}
    {doc d : Document K V} (hdoc : store.find? doc.key = some doc)
    (hold : ∀ o ∈ oldDoc, o.key = doc.key) (h : v.settled oldDoc doc = some d) :
    Agrees q store d := by
  unfold View.settled at h
  by_cases hmatch : q.matchesDocument doc = true
  · rw [if_pos hmatch] at h
    cases oldDoc with
    | none =>
        obtain rfl := Option.some_inj.mp h
        exact ⟨doc, hdoc, hmatch, Or.inl rfl⟩
    | some old =>
        have hkey : old.key = doc.key := hold old rfl
        simp only at h
        by_cases hvalue : old.value ≠ doc.value
        · rw [if_pos hvalue] at h
          by_cases hwait : shouldWaitForSyncedDocument doc old = true
          · rw [if_pos hwait] at h
            obtain rfl := Option.some_inj.mp h
            exact ⟨doc, hkey ▸ hdoc, hmatch, Or.inr hwait⟩
          · rw [if_neg hwait] at h
            obtain rfl := Option.some_inj.mp h
            exact ⟨doc, hdoc, hmatch, Or.inl rfl⟩
        · rw [if_neg hvalue] at h
          by_cases hpending : v.mutatedKeys.contains doc.key ≠ v.hasPendingMutations doc
          · rw [if_pos hpending] at h
            obtain rfl := Option.some_inj.mp h
            exact ⟨doc, hdoc, hmatch, Or.inl rfl⟩
          · rw [if_neg hpending] at h
            obtain rfl := Option.some_inj.mp h
            exact ⟨doc, hkey ▸ hdoc, hmatch, Or.inl (not_not.mp hvalue)⟩
  · rw [if_neg hmatch] at h
    cases h

/-- A round over documents of the local store leaves documents of the local store. -/
theorem agrees_round {v : View q} {store docs : DocumentMap K V} {old : DocumentSet q}
    {changes : ViewDocumentChanges q} (hround : View.Round v old docs changes)
    (hdocs : ∀ doc ∈ docs, store.find? doc.key = some doc)
    (hold : ∀ d ∈ old, docs.find? d.key = none → Agrees q store d) :
    ∀ d ∈ changes.documentSet, Agrees q store d := by
  intro d hd
  obtain ⟨changed, hcut, hfind⟩ := hround.documents
  rw [hcut] at hd
  have hchanged : changed.find? d.key = some d := Keyed.Set.find?_key (mem_of_mem_cut hd)
  rw [hfind] at hchanged
  cases hdoc : docs.find? d.key with
  | none =>
      rw [hdoc, Option.elim_none] at hchanged
      exact hold d (Keyed.Set.mem_of_find? hchanged) hdoc
  | some doc =>
      rw [hdoc, Option.elim_some] at hchanged
      have hkey : doc.key = d.key := Keyed.Set.key_of_find? hdoc
      refine agrees_settled (hdocs doc (Keyed.Set.mem_of_find? hdoc)) ?_ hchanged
      intro o ho
      rw [hkey]
      exact Keyed.Set.key_of_find? ho

/-- Documents of the local store never ask for another round. -/
theorem refills_executeQuery {store : DocumentMap K V} {old : DocumentSet q}
    (hold : ∀ d ∈ old, Agrees q store d) :
    (executeQuery q store).list.any (View.refills old) = false := by
  rw [List.any_eq_false]
  intro doc hdoc
  obtain ⟨hstore, hmatch⟩ := Keyed.Set.mem_filter.mp hdoc
  unfold View.refills
  cases hfind : old.find? doc.key with
  | none => simp
  | some oldDoc =>
      obtain ⟨l, hl, -, hagree⟩ := hold oldDoc (Keyed.Set.mem_of_find? hfind)
      have hkey : oldDoc.key = doc.key := Keyed.Set.key_of_find? hfind
      have hldoc : l = doc := by
        have hself : store.find? doc.key = some doc := Keyed.Set.find?_key hstore
        rw [hkey, hself] at hl
        exact (Option.some_inj.mp hl).symm
      rw [hldoc] at hagree
      rcases hagree with hvalue | hwait
      · simp [hmatch, hvalue]
      · simp [hmatch, hwait]

/-- The changes of the view's documents, after as many rounds as it takes. -/
theorem Session.viewDocChanges_ok {s : Session q} (changes : DocumentMap K V)
    (hmutated : ∀ k, s.view.mutatedKeys.contains k =
      (s.view.documentSet.find? k).any Document.hasLocalMutations)
    (hchanges : ∀ doc ∈ changes, s.store.find? doc.key = some doc)
    (hview : ∀ d ∈ s.view.documentSet, changes.find? d.key = none → Agrees q s.store d) :
    ∃ first last, View.Round s.view s.view.documentSet changes first ∧
      s.viewDocChanges changes = .ok last ∧ last.needsRefill = false ∧
      Tracks s.view.documentSet last ∧ (∀ d ∈ last.documentSet, Agrees q s.store d) ∧
      (first.needsRefill = false ∧ last = first ∨
        View.Round s.view first.documentSet (executeQuery q s.store) last) := by
  obtain ⟨first, hfirst, hround⟩ := s.view.computeDocumentChanges_none changes hmutated
  have hagrees := agrees_round hround hchanges hview
  have hrefill := refills_executeQuery hagrees
  unfold viewDocChanges
  rw [hfirst]
  by_cases hneeds : first.needsRefill = true
  · obtain ⟨last, hlast, hok⟩ :=
      s.view.computeDocumentChanges_some (executeQuery q s.store) hround.tracks
    have hdone : last.needsRefill = false := hlast.needsRefill.trans hrefill
    rw [hdone, if_neg (by simp)] at hok
    refine ⟨first, last, hround, ?_, hdone, hlast.tracks, ?_, Or.inr hlast⟩
    · show (if first.needsRefill = true then _ else _) = _
      rw [if_pos hneeds, hok]
    · refine agrees_round hlast ?_ fun d hd _ => hagrees d hd
      intro doc hdoc
      exact Keyed.Set.find?_key (Keyed.Set.mem_filter.mp hdoc).1
  · refine ⟨first, first, hround, ?_, Bool.eq_false_iff.mpr hneeds, hround.tracks, hagrees,
      Or.inl ⟨Bool.eq_false_iff.mpr hneeds, rfl⟩⟩
    show (if first.needsRefill = true then _ else _) = _
    rw [if_neg hneeds]
    rfl

/-! ### Documents in limbo -/

section

omit [DecidableEq V]

theorem mem_iff_contains {keys : DocumentKeySet K} {k : K} :
    k ∈ keys.list ↔ keys.contains k = true := by
  rw [Keyed.Set.contains_iff]
  exact ⟨fun h => ⟨k, h, rfl⟩, fun ⟨_, h, heq⟩ => heq ▸ h⟩

theorem ext_contains {a b : DocumentKeySet K} (h : ∀ k, a.contains k = b.contains k) : a = b :=
  Keyed.Set.ext fun k => by
    rw [Keyed.Set.mem_def, Keyed.Set.mem_def, mem_iff_contains, mem_iff_contains, h]

theorem contains_foldl_removed (k : K) : ∀ (keys : List K) (refs : DocumentKeySet K),
    ((keys.map LimboDocumentChange.removed).foldl updateTrackedLimboDocument refs).contains k =
      (refs.contains k && decide (k ∉ keys)) := by
  intro keys
  induction keys with
  | nil => intro refs; simp
  | cons key rest ih =>
      intro refs
      rw [List.map_cons, List.foldl_cons, ih]
      show ((refs.erase key).contains k && _) = _
      rw [contains_erase]
      by_cases hk : k = key
      · simp [hk]
      · simp [hk]

theorem contains_foldl_added (k : K) : ∀ (keys : List K) (refs : DocumentKeySet K),
    ((keys.map LimboDocumentChange.added).foldl updateTrackedLimboDocument refs).contains k =
      (refs.contains k || decide (k ∈ keys)) := by
  intro keys
  induction keys with
  | nil => intro refs; simp
  | cons key rest ih =>
      intro refs
      rw [List.map_cons, List.foldl_cons, ih]
      show ((refs.insert key).contains k || _) = _
      rw [contains_insert]
      by_cases hk : k = key
      · simp [hk]
      · simp [hk]

/-- Who follows the changes has the new documents in limbo. -/
theorem foldl_limboChanges (old new : DocumentKeySet K) :
    (((old.list.filter fun key => !new.contains key).map LimboDocumentChange.removed) ++
      (new.list.filter fun key => !old.contains key).map LimboDocumentChange.added).foldl
        updateTrackedLimboDocument old = new := by
  refine ext_contains fun k => ?_
  rw [List.foldl_append, contains_foldl_added, contains_foldl_removed]
  simp only [List.mem_filter, mem_iff_contains]
  cases old.contains k with
  | false => simp
  | true => simp

end

/-! ### One event -/

namespace Session

section

omit [DecidableEq V]

/-- What every event keeps. -/
structure Coherent (s : Session q) : Prop where
  told : Told s
  mutated (k : K) : s.view.mutatedKeys.contains k =
    (s.view.documentSet.find? k).any Document.hasLocalMutations
  agrees : ∀ d ∈ s.view.documentSet, Agrees q s.store d
  refs : s.limboDocumentRefs = s.view.limboDocuments
  limbo : s.view.current = true →
    ∀ k, s.view.limboDocuments.contains k = s.view.shouldBeInLimbo k
  syncState : s.view.syncState =
    if s.view.limboDocuments.isEmpty && s.view.current then .synced else .local

/-- A failed assertion about what the server has reported; all others hold. -/
def CoherentOrFault (r : Except (Fault K) (Session q)) : Prop :=
  (∃ key, r = .error (.modifiedNotFound key)) ∨ ∃ s, r = .ok s ∧ Coherent s

/-- A view's change, told as the difference it makes. -/
structure Exact (old new : View q) (change : ViewChange q) : Prop where
  documents : ∀ snapshot ∈ change.snapshot,
    snapshot.oldDocuments = old.documentSet ∧ snapshot.documents = new.documentSet
  ordered : ∀ snapshot ∈ change.snapshot,
    snapshot.documentChanges.Pairwise fun a b => changeRank q a < changeRank q b
  once : ∀ snapshot ∈ change.snapshot,
    (snapshot.documentChanges.map fun c => c.document.key).Nodup
  describes : ∀ snapshot ∈ change.snapshot, ∀ k,
    Describes (old.documentSet.find? k) (new.documentSet.find? k)
      (snapshot.documentChanges.find? fun c => c.document.key = k)
  silent : change.snapshot = none →
    new.documentSet = old.documentSet ∧ new.syncState = old.syncState

theorem exact_of_applied {old new : View q} {docChanges : ViewDocumentChanges q}
    {targetChange : Option (TargetChange K)} {change : ViewChange q}
    (htracks : Tracks old.documentSet docChanges)
    (happlied : View.Applied old docChanges targetChange new change) : Exact old new change := by
  obtain ⟨changes, hfind, hsnapshot, hnone⟩ := happlied.snapshot
  have hdescribes : ∀ k, Describes (old.documentSet.find? k) (new.documentSet.find? k)
      (changes.find? k) := by
    intro k
    rw [happlied.documentSet, hfind]
    exact htracks.describes k
  refine ⟨?_, ?_, ?_, ?_, ?_⟩
  · intro snapshot hmem
    rw [happlied.documentSet]
    exact ⟨(hsnapshot snapshot hmem).oldDocuments, (hsnapshot snapshot hmem).documents⟩
  · intro snapshot hmem
    rw [(hsnapshot snapshot hmem).documentChanges]
    exact changes.sorted
  · intro snapshot hmem
    rw [(hsnapshot snapshot hmem).documentChanges]
    exact changes.nodup
  · intro snapshot hmem k
    rw [(hsnapshot snapshot hmem).documentChanges]
    exact hdescribes k
  · intro hcase
    refine ⟨Keyed.Set.ext_find? fun k => ?_, (hnone hcase).2⟩
    have hempty : changes.find? k = none := by
      rw [Keyed.Set.find?, (hnone hcase).1]
      rfl
    have hk := hdescribes k
    rw [hempty] at hk
    generalize old.documentSet.find? k = o at hk
    generalize new.documentSet.find? k = n at hk
    cases hk with
    | same => rfl

/-- Changes are applied, and the snapshot, if there is one, is delivered. -/
theorem deliver_ok {s : Session q} {docChanges : ViewDocumentChanges q}
    {targetChange : Option (TargetChange K)} {view : View q} {change : ViewChange q}
    (htold : Told s) (hrefs : s.limboDocumentRefs = s.view.limboDocuments)
    (htracks : Tracks s.view.documentSet docChanges)
    (hagrees : ∀ d ∈ docChanges.documentSet, Agrees q s.store d)
    (happlied : View.Applied s.view docChanges targetChange view change) :
    ∃ t, (s.withView view change).onViewSnapshot change.snapshot = .ok t ∧ Coherent t ∧
      t.store = s.store ∧ t.view = view := by
  obtain ⟨changes, hfind, hsnapshot, -⟩ := happlied.snapshot
  have hdescribes : ∀ k, Describes (s.view.documentSet.find? k) (view.documentSet.find? k)
      (changes.find? k) := by
    intro k
    rw [happlied.documentSet, hfind]
    exact htracks.describes k
  -- Whatever the listener does, the rest of the state is as it was handed on.
  have hcoherent : ∀ t, Told t → Same (s.withView view change) t → Coherent t := by
    rintro t htold ⟨hstore, hview, hrefsEq⟩
    refine ⟨htold, ?_, ?_, ?_, ?_, ?_⟩
    · intro k
      rw [hview]
      show view.mutatedKeys.contains k = (view.documentSet.find? k).any Document.hasLocalMutations
      rw [happlied.mutatedKeys, happlied.documentSet]
      exact htracks.mutated k
    · rw [hview, hstore]
      show ∀ d ∈ view.documentSet, Agrees q s.store d
      rw [happlied.documentSet]
      exact hagrees
    · rw [hview, hrefsEq]
      show change.limboChanges.foldl updateTrackedLimboDocument _ = view.limboDocuments
      rw [happlied.limboChanges, hrefs]
      exact foldl_limboChanges _ _
    · rw [hview]
      exact happlied.limbo
    · rw [hview]
      exact happlied.syncState
  cases hcase : change.snapshot with
  | none =>
      have hsame : view.documentSet = s.view.documentSet :=
        ((exact_of_applied htracks happlied).silent hcase).1
      have hkept : Told (s.withView view change) := by
        refine ⟨?_, ?_⟩
        · show Handed (s.withView view change) view.documentSet
          rw [hsame]
          exact ⟨htold.handed.shown, htold.handed.known, htold.handed.once⟩
        · show ∀ snapshot ∈ s.listener.snapshot, snapshot.documents = view.documentSet
          rw [hsame]
          exact htold.snapshot
      exact ⟨_, rfl, hcoherent _ hkept ⟨rfl, rfl, rfl⟩, rfl, rfl⟩
  | some snapshot =>
      have hraised : View.Snapshot s.view.documentSet (s.withView view change).view.documentSet
          changes snapshot := by
        have h := hsnapshot snapshot hcase
        rw [← happlied.documentSet] at h
        exact h
      obtain ⟨t, ht, hsame, htold'⟩ := onViewSnapshot_ok hraised hdescribes
        ⟨htold.handed.shown, htold.handed.known, htold.handed.once⟩
      exact ⟨t, ht, hcoherent t htold' hsame, hsame.1, hsame.2.1⟩

/-- The connection is lost or there again. -/
theorem online_ok {s : Session q} (h : Coherent s) (onlineState : OnlineState) :
    ∃ t, s.handleOnlineStateChange onlineState = .ok t ∧ Coherent t ∧ t.store = s.store ∧
      t.view.documentSet = s.view.documentSet := by
  -- The view goes first, the listener after it.
  obtain ⟨view, change, u, happly, hlimbo, hu, hcoherent, hstore, hdocs⟩ : ∃ view change u,
      s.view.applyOnlineStateChange onlineState = .ok (view, change) ∧
      change.limboChanges = [] ∧
      ({ s with view } : Session q).onViewSnapshot change.snapshot = .ok u ∧ Coherent u ∧
      u.store = s.store ∧ u.view.documentSet = s.view.documentSet := by
    unfold View.applyOnlineStateChange
    by_cases hoffline : (s.view.current && decide (onlineState = .offline)) = true
    · rw [if_pos hoffline]
      obtain ⟨_, ⟨_, hsome, _⟩, _⟩ | ⟨view, change, hok, happlied⟩ :=
        View.applyChanges_cases { s.view with current := false }
          { documentSet := s.view.documentSet, changeSet := .empty
            mutatedKeys := s.view.mutatedKeys, needsRefill := false } rfl none
      · cases hsome
      · obtain ⟨-, hlimbo⟩ := happlied.notCurrent (happlied.current rfl)
        obtain ⟨t, ht, hcoherent, hstore, hview⟩ :=
          deliver_ok (s := { s with view := { s.view with current := false } })
            ⟨⟨h.told.handed.shown, h.told.handed.known, h.told.handed.once⟩, h.told.snapshot⟩ h.refs
            (View.tracks_start h.mutated) h.agrees happlied
        refine ⟨view, change, t, hok, hlimbo, ?_, hcoherent, hstore, ?_⟩
        · unfold withView at ht
          rw [hlimbo] at ht
          exact ht
        · rw [hview]
          exact happlied.documentSet
    · rw [if_neg hoffline]
      exact ⟨s.view, _, s, rfl, rfl, rfl, h, rfl, rfl⟩
  obtain ⟨t, ht, ⟨htstore, htview, htrefs⟩, htold⟩ :=
    raise_onOnlineStateChanged_ok hcoherent.told onlineState
  refine ⟨t, ?_, ?_, htstore.trans hstore, by rw [htview, hdocs]⟩
  · unfold handleOnlineStateChange
    rw [happly]
    show (if _ then _ else _) = _
    rw [hlimbo, if_neg (by simp)]
    show (onViewSnapshot _ _ >>= _) = _
    rw [hu]
    exact ht
  · refine ⟨htold, ?_, ?_, ?_, ?_, ?_⟩
    · rw [htview]
      exact hcoherent.mutated
    · rw [htview, htstore]
      exact hcoherent.agrees
    · rw [htview, htrefs]
      exact hcoherent.refs
    · rw [htview]
      exact hcoherent.limbo
    · rw [htview]
      exact hcoherent.syncState

end

/-- Both rounds of the view, when documents of the local store have changed. -/
theorem rounds_ok {s : Session q} (h : Coherent s) (changes : DocumentMap K V) :
    ∃ first last, View.Round s.view s.view.documentSet changes first ∧
      (s.stored changes).viewDocChanges changes = .ok last ∧ last.needsRefill = false ∧
      Tracks s.view.documentSet last ∧
      (∀ d ∈ last.documentSet, Agrees q (s.stored changes).store d) ∧
      (first.needsRefill = false ∧ last = first ∨
        View.Round s.view first.documentSet (executeQuery q (s.stored changes).store) last) := by
  refine viewDocChanges_ok (s := s.stored changes) changes h.mutated ?_ ?_
  · intro doc hdoc
    have hself : changes.find? doc.key = some doc := Keyed.Set.find?_key hdoc
    show (changes.list.foldl Keyed.Set.insert s.store).find? doc.key = some doc
    rw [find?_stored, hself]
    rfl
  · intro d hd hnone
    obtain ⟨l, hl, hrest⟩ := h.agrees d hd
    refine ⟨l, ?_, hrest⟩
    show (changes.list.foldl Keyed.Set.insert s.store).find? d.key = some l
    rw [find?_stored, hnone, hl]
    rfl

/-- Documents of the local store have changed. -/
theorem emit_ok {s : Session q} (h : Coherent s) (changes : DocumentMap K V)
    (targetChange : Option (TargetChange K)) :
    (∃ key, s.view.Unknown targetChange key ∧
      s.emitNewSnapshotsAndNotifyLocalStore changes targetChange =
        .error (.modifiedNotFound key)) ∨
    ∃ t last, s.emitNewSnapshotsAndNotifyLocalStore changes targetChange = .ok t ∧ Coherent t ∧
      (s.stored changes).viewDocChanges changes = .ok last ∧
      t.store = (s.stored changes).store ∧ t.view.documentSet = last.documentSet := by
  obtain ⟨first, last, -, hlast, hneeds, htracks, hagrees, -⟩ := rounds_ok h changes
  unfold emitNewSnapshotsAndNotifyLocalStore
  rw [hlast]
  obtain ⟨key, hunknown, hfault⟩ | ⟨view, change, hok, happlied⟩ :=
    s.view.applyChanges_cases last hneeds targetChange
  · left
    refine ⟨key, hunknown, ?_⟩
    show (s.view.applyChanges last targetChange >>= _) = _
    rw [hfault]
    rfl
  · right
    obtain ⟨t, ht, hcoherent, hstore, hview⟩ :=
      deliver_ok (s := s.stored changes)
        ⟨⟨h.told.handed.shown, h.told.handed.known, h.told.handed.once⟩, h.told.snapshot⟩ h.refs
        htracks hagrees happlied
    refine ⟨t, last, ?_, hcoherent, rfl, hstore, ?_⟩
    · show (s.view.applyChanges last targetChange >>= _) = _
      rw [hok]
      exact ht
    · rw [hview]
      exact happlied.documentSet

/-- The first documents of a view and what it tells of them. -/
theorem first_ok (q : Query K V R) (start : Start K V) :
    ∃ last view change,
      (opened q start).view.computeDocumentChanges (executeQuery q start.store) none = .ok last ∧
      View.Round (View.new q start.remoteKeys) .empty (executeQuery q start.store) last ∧
      (∀ d ∈ last.documentSet, Agrees q start.store d) ∧
      (opened q start).view.applyChanges last
        (some (.createSynthesizedTargetChange start.mirrorSynced start.resumeToken)) =
          .ok (view, change) ∧
      View.Applied (opened q start).view last
        (some (.createSynthesizedTargetChange start.mirrorSynced start.resumeToken)) view change ∧
      change.snapshot.isSome = true := by
  obtain ⟨last, hlast, hround⟩ := (opened q start).view.computeDocumentChanges_none
    (executeQuery q start.store) fun _ => rfl
  have hneeds : last.needsRefill = false := by
    have hnone : ∀ d ∈ (opened q start).view.documentSet, Agrees q start.store d :=
      fun d hd => absurd hd List.not_mem_nil
    rw [hround.needsRefill]
    exact refills_executeQuery hnone
  have hagrees : ∀ d ∈ last.documentSet, Agrees q start.store d := by
    refine agrees_round hround ?_ fun d hd => absurd hd List.not_mem_nil
    intro doc hdoc
    exact Keyed.Set.find?_key (Keyed.Set.mem_filter.mp hdoc).1
  obtain ⟨_, ⟨_, hsome, hkey, _⟩, _⟩ | ⟨view, change, hok, happlied⟩ :=
    (opened q start).view.applyChanges_cases last hneeds
      (some (.createSynthesizedTargetChange start.mirrorSynced start.resumeToken))
  · obtain rfl := Option.some_inj.mp hsome
    exact absurd hkey List.not_mem_nil
  · refine ⟨last, view, change, hlast, hround, hagrees, hok, happlied, ?_⟩
    -- The view has a sync state now, which it had not before.
    rw [Option.isSome_iff_ne_none]
    intro hnone
    obtain ⟨changes, -, -, hsame⟩ := happlied.snapshot
    have hstate := (hsame hnone).2
    rw [happlied.syncState] at hstate
    split at hstate
    · cases hstate
    · cases hstate

/-- A new listener: no assertion can fail, as the server has not reported anything yet. -/
theorem listen_ok (q : Query K V R) (start : Start K V) :
    ∃ s last, listen q start = .ok s ∧ Coherent s ∧ s.store = start.store ∧
      View.Round (View.new q start.remoteKeys) .empty (executeQuery q start.store) last ∧
      s.view.documentSet = last.documentSet := by
  obtain ⟨last, view, change, hlast, hround, hagrees, hok, happlied, hsome⟩ := first_ok q start
  obtain ⟨t, ht, hcoherent, hstore, hview⟩ :=
    deliver_ok (s := opened q start)
      ⟨⟨rfl, fun _ => rfl, fun _ hcs => absurd hcs List.not_mem_nil⟩, by rintro snapshot ⟨⟩⟩ rfl
      hround.tracks hagrees happlied
  refine ⟨t, last, ?_, hcoherent, hstore, hround, ?_⟩
  · unfold listen
    simp only [hlast]
    show ((opened q start).view.applyChanges last _ >>= _) = _
    rw [hok]
    show (if _ then _ else _) = _
    rw [if_neg (by simp [Option.isSome_iff_ne_none.mp hsome])]
    exact ht
  · rw [hview]
    exact happlied.documentSet

/-! ### Every run -/

/-- No assertion but the one about the server fails, and all is kept. -/
theorem coherentOrFault_step (r : Except (Fault K) (Session q)) (event : Event K V)
    (h : CoherentOrFault r) : CoherentOrFault (stepOrFault r event) := by
  rcases h with ⟨key, rfl⟩ | ⟨s, rfl, hs⟩
  · exact Or.inl ⟨key, rfl⟩
  · cases event with
    | changed changes targetChange =>
        obtain ⟨key, -, hfault⟩ | ⟨t, -, ht, hcoherent, -⟩ := emit_ok hs changes targetChange
        · exact Or.inl ⟨key, hfault⟩
        · exact Or.inr ⟨t, ht, hcoherent⟩
    | online onlineState =>
        obtain ⟨t, ht, hcoherent, -⟩ := online_ok hs onlineState
        exact Or.inr ⟨t, ht, hcoherent⟩

theorem coherentOrFault_run (q : Query K V R) (start : Start K V) (events : List (Event K V)) :
    CoherentOrFault (run q start events) := by
  obtain ⟨s, -, hs, hcoherent, -⟩ := listen_ok q start
  exact run_invariant coherentOrFault_step events _ (Or.inr ⟨s, hs, hcoherent⟩)

/-- The server has said of a document that it was modified without ever having listed it. -/
def Misled (q : Query K V R) (start : Start K V) (events : List (Event K V)) (key : K) : Prop :=
  ∃ before changes targetChange s, before ++ [.changed changes targetChange] <+: events ∧
    run q start before = .ok s ∧ s.view.Unknown targetChange key

/-- There is no other reason for a failed assertion. -/
theorem misled_of_fault {q : Query K V R} {start : Start K V} {key : K}
    {events : List (Event K V)} (h : run q start events = .error (.modifiedNotFound key)) :
    Misled q start events key := by
  induction events using List.reverseRecOn with
  | nil =>
      obtain ⟨s, -, hs, -⟩ := listen_ok q start
      have hne : listen q start = .error (.modifiedNotFound key) := h
      rw [hs] at hne
      cases hne
  | append_singleton before event ih =>
      have hlast : stepOrFault (run q start before) event = .error (.modifiedNotFound key) := by
        rw [← h]
        exact (run_append stepOrFault (listen q start) before [event]).symm
      rcases coherentOrFault_run q start before with ⟨key', hfault⟩ | ⟨s, hs, hcoherent⟩
      · rw [hfault] at hlast
        have hkey : key' = key := by
          have herror : (.error (.modifiedNotFound key') : Except (Fault K) (Session q)) =
            .error (.modifiedNotFound key) := hlast
          simpa using herror
        rw [hkey] at hfault
        obtain ⟨pre, changes, targetChange, s, hpre, hrest⟩ := ih hfault
        exact ⟨pre, changes, targetChange, s, hpre.trans (List.prefix_append _ _), hrest⟩
      · rw [hs] at hlast
        have hstep : s.step event = .error (.modifiedNotFound key) := hlast
        cases event with
        | online onlineState =>
            obtain ⟨t, ht, -⟩ := online_ok hcoherent onlineState
            have hok : s.step (.online onlineState) = .ok t := ht
            rw [hok] at hstep
            cases hstep
        | changed changes targetChange =>
            obtain ⟨key', hunknown, hfault⟩ | ⟨t, -, ht, -⟩ :=
              emit_ok hcoherent changes targetChange
            · have hkey : key' = key := by
                have herror := hfault.symm.trans hstep
                simpa using herror
              rw [hkey] at hunknown
              exact ⟨before, changes, targetChange, s, List.prefix_refl _, hs, hunknown⟩
            · have hok : s.step (.changed changes targetChange) = .ok t := ht
              rw [hok] at hstep
              cases hstep

/-- All is well after a run, unless the server has been wrong. -/
theorem coherent_or_misled (q : Query K V R) (start : Start K V) (events : List (Event K V)) :
    (∃ key, Misled q start events key) ∨ ∃ s, run q start events = .ok s ∧ Coherent s := by
  rcases coherentOrFault_run q start events with ⟨key, hfault⟩ | hok
  · exact Or.inl ⟨key, misled_of_fault hfault⟩
  · exact Or.inr hok

/--
A caller who replays the document changes by position has the view's documents, in the
view's order, from the first event on, and before that none.  No position is ever missing,
and the changes of a first event come in order.
-/
theorem shown_eq_view (q : Query K V R) (start : Start K V) (events : List (Event K V)) :
    (∃ key, Misled q start events key) ∨
    ∃ s, run q start events = .ok s ∧
      s.shown = if s.listener.raisedInitialEvent then
        s.view.documentSet.list.map fun d => (d.key, d.value) else [] := by
  rcases coherent_or_misled q start events with hmisled | ⟨s, hs, hcoherent⟩
  · exact Or.inl hmisled
  · exact Or.inr ⟨s, hs, hcoherent.told.handed.shown⟩

/--
The engine resolves precisely the view's documents in limbo, and once the server has told
all of its documents those are the ones it has not told of, local writes aside.  The view
is in sync if and only if it is current and none is left, and the keys it reports with
pending writes are those of its documents with local writes.
-/
theorem limbo_exact (q : Query K V R) (start : Start K V) (events : List (Event K V)) :
    (∃ key, Misled q start events key) ∨
    ∃ s, run q start events = .ok s ∧
      s.limboDocumentRefs = s.view.limboDocuments ∧
      (s.view.current = true → ∀ k, s.limboDocumentRefs.contains k = true ↔
        s.view.syncedDocuments.contains k = false ∧
          ∃ d, s.view.documentSet.find? k = some d ∧ d.hasLocalMutations = false) ∧
      (s.view.syncState = .synced ↔
        s.view.current = true ∧ s.limboDocumentRefs.list = []) ∧
      ∀ k, s.view.mutatedKeys.contains k = true ↔
        ∃ d, s.view.documentSet.find? k = some d ∧ d.hasLocalMutations = true := by
  rcases coherent_or_misled q start events with hmisled | ⟨s, hs, hcoherent⟩
  · exact Or.inl hmisled
  refine Or.inr ⟨s, hs, hcoherent.refs, ?_, ?_, ?_⟩
  · intro hcurrent k
    rw [hcoherent.refs, hcoherent.limbo hcurrent k]
    unfold View.shouldBeInLimbo
    cases hsynced : s.view.syncedDocuments.contains k with
    | true => simp
    | false =>
        cases hfind : s.view.documentSet.find? k with
        | none => simp
        | some d => simp
  · rw [hcoherent.syncState, hcoherent.refs]
    cases hcurrent : s.view.current with
    | false => simp
    | true =>
        rw [Bool.and_true, ← List.isEmpty_iff]
        show _ ↔ _ ∧ s.view.limboDocuments.isEmpty = true
        cases s.view.limboDocuments.isEmpty with
        | false => simp
        | true => simp
  · intro k
    rw [hcoherent.mutated k, Option.any_eq_true]

end Session

end Firebase
