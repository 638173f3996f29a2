/-
A view with a limit holds the first documents that match.

A view knows its own documents and the changes, and nothing of the documents beyond its
limit.  When none of its documents has gone or moved beyond the last, whatever is beyond
the limit stays there unless it changes, and otherwise the view asks the local store.  So it
has, at any time, the first documents of the local store that match, or the last.

Held-back changes are the exception.  A view counts with the old place of such a document
and may let go of it for one that comes later.
-/
import GoodThing.Proofs.Session

namespace Firebase

open Machine ViewDocumentChanges

variable {D K V R : Type} [LinearOrder R] {q : Query K V R}

/-! ### Within the limit -/

/-- The items within a query's limit. -/
def within (q : Query K V R) {o : Keyed.Order D K R} (items : Keyed.Set o) : Keyed.Set o :=
  match q.limitType with
  | .none => items
  | .first => items.take q.limit
  | .last => items.drop (items.size - q.limit)

theorem map_cut (docs : DocumentSet q) :
    (cut docs).map (data q) = within q (docs.map (data q)) := by
  unfold cut within
  cases q.limitType with
  | none => rfl
  | first => exact Keyed.Set.map_take (data q) docs q.limit
  | last =>
      refine Keyed.Set.eq_of_list_eq ?_
      show (docs.list.drop _).map _ = (docs.list.map _).drop ((docs.list.map _).length - _)
      rw [List.map_drop, List.length_map]
      rfl

theorem mem_of_mem_within {o : Keyed.Order D K R} {items : Keyed.Set o} {d : D}
    (h : d ∈ within q items) : d ∈ items := by
  unfold within at h
  cases hlimit : q.limitType with
  | none => rwa [hlimit] at h
  | first =>
      rw [hlimit] at h
      exact List.mem_of_mem_take h
  | last =>
      rw [hlimit] at h
      exact List.mem_of_mem_drop h

variable [LinearOrder K]

/-- The documents of the local store that match, in the order of the query. -/
def matching (q : Query K V R) (store : DocumentMap K V) : Keyed.Set (dataOrder q) :=
  ((executeQuery q store).list.foldl Keyed.Set.insert (.empty : DocumentSet q)).map (data q)

theorem find?_matching (store : DocumentMap K V) (k : K) :
    (matching q store).find? k =
      ((store.find? k).filter q.matchesDocument).map (data q).apply := by
  have hinsert : ((executeQuery q store).list.foldl Keyed.Set.insert
      (.empty : DocumentSet q)).find? k = (executeQuery q store).find? k := by
    have h := Keyed.Set.find?_foldl_insert (o := q.comparator) k (executeQuery q store).list .empty
      (executeQuery q store).nodup
    rw [Keyed.Set.find?_empty, Option.or_none] at h
    exact h
  unfold matching
  rw [Keyed.Set.find?_map, hinsert, find?_executeQuery]

/-! ### One round -/

variable [DecidableEq V]

/-- A document that is not held back has the value of the local store. -/
theorem map_settled {v : View q} {oldDoc : Option (Document K V)} {doc : Document K V}
    (hkey : ∀ o ∈ oldDoc, o.key = doc.key)
    (hwait : ∀ o ∈ oldDoc, o.value ≠ doc.value → shouldWaitForSyncedDocument doc o = false) :
    (v.settled oldDoc doc).map (data q).apply =
      ((some doc).filter q.matchesDocument).map (data q).apply := by
  unfold View.settled
  by_cases hmatch : q.matchesDocument doc = true
  · rw [if_pos hmatch, Option.filter_some, if_pos hmatch]
    cases oldDoc with
    | none => rfl
    | some old =>
        have hold : old.key = doc.key := hkey old rfl
        simp only
        by_cases hvalue : old.value ≠ doc.value
        · rw [if_pos hvalue, hwait old rfl hvalue, if_neg (by simp)]
        · rw [if_neg hvalue]
          by_cases hpending : v.mutatedKeys.contains doc.key ≠ v.hasPendingMutations doc
          · rw [if_pos hpending]
          · rw [if_neg hpending, Option.map_some, Option.map_some, apply_data, apply_data, hold,
              not_not.mp hvalue]
  · rw [if_neg hmatch, Option.filter_some, if_neg hmatch]

/-- A round over the whole local store, on top of documents it has. -/
theorem map_round_executeQuery {v : View q} {store : DocumentMap K V} {old : DocumentSet q}
    {changes : ViewDocumentChanges q} (hround : View.Round v old (executeQuery q store) changes)
    (hold : ∀ d ∈ old, (matching q store).find? d.key = some (d.key, d.value)) :
    changes.documentSet.map (data q) = within q (matching q store) := by
  obtain ⟨changed, hcut, hfind⟩ := hround.documents
  rw [hcut, map_cut]
  congr 1
  refine Keyed.Set.ext_find? fun k => ?_
  rw [Keyed.Set.find?_map, hfind, find?_matching]
  have hexecute : (executeQuery q store).find? k = (store.find? k).filter q.matchesDocument :=
    find?_executeQuery store k
  rw [← hexecute]
  cases hdoc : (executeQuery q store).find? k with
  | none =>
      rw [Option.elim_none, Option.map_none, Option.map_eq_none_iff]
      cases hd : old.find? k with
      | none => rfl
      | some d =>
          have hkey : d.key = k := Keyed.Set.key_of_find? hd
          have hmatching := hold d (Keyed.Set.mem_of_find? hd)
          rw [hkey, find?_matching, ← hexecute, hdoc] at hmatching
          cases hmatching
  | some doc =>
      have hdocKey : doc.key = k := Keyed.Set.key_of_find? hdoc
      have hmatch : q.matchesDocument doc = true :=
        (Keyed.Set.mem_filter.mp (Keyed.Set.mem_of_find? hdoc)).2
      rw [Option.elim_some, map_settled, Option.filter_some, if_pos hmatch]
      · intro o ho
        rw [hdocKey]
        exact Keyed.Set.key_of_find? ho
      · -- The document is the one of the local store already.
        intro o ho hvalue
        have hkey : o.key = k := Keyed.Set.key_of_find? ho
        have hmatching := hold o (Keyed.Set.mem_of_find? ho)
        rw [hkey, find?_matching, ← hexecute, hdoc, Option.map_some, Option.some_inj] at hmatching
        exact absurd (congrArg Prod.snd hmatching).symm hvalue

/-- A document of a full limit that asks for no other round is still within it. -/
theorem stays_of_refills {old : DocumentSet q} {doc o : Document K V}
    (hrefill : View.refills old doc = false) (ho : old.find? doc.key = some o)
    (hwait : o.value ≠ doc.value → shouldWaitForSyncedDocument doc o = false)
    (hfull : View.fullLimit old = true) :
    q.matchesDocument doc = true ∧ (o.value = doc.value ∨ View.outsideLimit old doc = false) := by
  unfold View.refills at hrefill
  rw [ho] at hrefill
  simp only at hrefill
  by_cases hmatch : q.matchesDocument doc = true
  · refine ⟨hmatch, ?_⟩
    by_cases hvalue : o.value = doc.value
    · exact Or.inl hvalue
    · rw [if_pos hmatch, hwait hvalue] at hrefill
      right
      simpa [hvalue] using hrefill
  · rw [if_neg hmatch, hfull] at hrefill
    cases hrefill

namespace Session

/-- The view has the first documents of the local store that match, or the last. -/
def Complete (s : Session q) : Prop :=
  s.view.documentSet.map (data q) = within q (matching q s.store)

/-- No change of a document is held back. -/
def NoneHeldBack (s : Session q) : Event K V → Prop
  | .changed changes _ => ∀ doc ∈ changes, ∀ old, s.view.documentSet.find? doc.key = some old →
      old.value ≠ doc.value → shouldWaitForSyncedDocument doc old = false
  | .online _ => True

section

variable {s : Session q} {changes : DocumentMap K V} {changed : DocumentSet q}
  (hfind : ∀ k, changed.find? k = (changes.find? k).elim (s.view.documentSet.find? k)
    (s.view.settled (s.view.documentSet.find? k)))
  (hwait : ∀ doc ∈ changes, ∀ old, s.view.documentSet.find? doc.key = some old →
    old.value ≠ doc.value → shouldWaitForSyncedDocument doc old = false)
  (hcomplete : Complete s)

include hfind

/-- What has not changed is as before, in the view and in the local store. -/
theorem find?_unchanged {k : K} (hk : changes.find? k = none) :
    (changed.map (data q)).find? k = (s.view.documentSet.map (data q)).find? k ∧
      (matching q (s.stored changes).store).find? k = (matching q s.store).find? k := by
  refine ⟨?_, ?_⟩
  · rw [Keyed.Set.find?_map, hfind, hk, Option.elim_none, ← Keyed.Set.find?_map]
  · have hstore : (s.stored changes).store.find? k = s.store.find? k := by
      show (changes.list.foldl Keyed.Set.insert s.store).find? k = _
      rw [find?_stored, hk, Option.none_or]
    rw [find?_matching, find?_matching, hstore]

include hwait

/-- What has changed is as in the local store. -/
theorem find?_changed {k : K} {doc : Document K V} (hk : changes.find? k = some doc) :
    (changed.map (data q)).find? k = ((some doc).filter q.matchesDocument).map (data q).apply ∧
      (matching q (s.stored changes).store).find? k =
        ((some doc).filter q.matchesDocument).map (data q).apply := by
  have hkey : doc.key = k := Keyed.Set.key_of_find? hk
  refine ⟨?_, ?_⟩
  · rw [Keyed.Set.find?_map, hfind, hk, Option.elim_some, map_settled]
    · intro o ho
      rw [hkey]
      exact Keyed.Set.key_of_find? ho
    · intro o ho
      rw [← hkey] at ho
      exact hwait doc (Keyed.Set.mem_of_find? hk) o ho
  · have hstore : (s.stored changes).store.find? k = some doc := by
      show (changes.list.foldl Keyed.Set.insert s.store).find? k = _
      rw [find?_stored, hk, Option.some_or]
    rw [find?_matching, hstore]

include hcomplete in
/-- The changed documents are among those of the local store. -/
theorem find?_matching_of_mem {d : Document K V} (hd : d ∈ changed) :
    (matching q (s.stored changes).store).find? d.key = some (d.key, d.value) := by
  have hself : (changed.map (data q)).find? d.key = some (d.key, d.value) := by
    have h : changed.find? d.key = some d := Keyed.Set.find?_key hd
    rw [Keyed.Set.find?_map, h]
    rfl
  cases hdoc : changes.find? d.key with
  | none =>
      obtain ⟨hview, hstore⟩ := find?_unchanged hfind hdoc
      rw [hstore]
      rw [hview, hcomplete] at hself
      exact Keyed.Set.find?_key (o := dataOrder q)
        (mem_of_mem_within (Keyed.Set.mem_of_find? hself))
  | some doc =>
      obtain ⟨hview, hstore⟩ := find?_changed hfind hwait hdoc
      rw [hstore, ← hview, hself]

/-- The documents of a full limit are within it after changes that ask for no other round. -/
theorem exists_stays (hrefill : changes.list.any (View.refills s.view.documentSet) = false)
    (hfull : View.fullLimit s.view.documentSet = true) {x : K × V}
    (hx : x ∈ s.view.documentSet.map (data q)) (hchanged : (changes.find? x.1).isSome = true) :
    ∃ doc : Document K V, (doc.key, doc.value) ∈ changed.map (data q) ∧ doc.key = x.1 ∧
      ((doc.key, doc.value) = x ∨ View.outsideLimit s.view.documentSet doc = false) := by
  obtain ⟨o, ho, rfl⟩ := List.mem_map.mp hx
  obtain ⟨doc, hdoc⟩ := Option.isSome_iff_exists.mp hchanged
  have hkey : doc.key = o.key := Keyed.Set.key_of_find? hdoc
  have hfindOld : s.view.documentSet.find? doc.key = some o := by
    rw [hkey]
    exact Keyed.Set.find?_key ho
  have hmem : doc ∈ changes := Keyed.Set.mem_of_find? hdoc
  have hdocRefill : View.refills s.view.documentSet doc = false :=
    Bool.eq_false_iff.mpr (List.any_eq_false.mp hrefill doc hmem)
  obtain ⟨hmatch, hstays⟩ :=
    stays_of_refills hdocRefill hfindOld (hwait doc hmem o hfindOld) hfull
  refine ⟨doc, ?_, hkey, ?_⟩
  · have h := (find?_changed hfind hwait hdoc).1
    rw [Option.filter_some, if_pos hmatch] at h
    exact Keyed.Set.mem_of_find? h
  · rcases hstays with hvalue | houtside
    · left
      show _ = (o.key, o.value)
      rw [hkey, hvalue]
    · exact Or.inr houtside

include hcomplete in
/-- Without another round the view is complete again. -/
theorem within_changed (hrefill : changes.list.any (View.refills s.view.documentSet) = false) :
    within q (changed.map (data q)) = within q (matching q (s.stored changes).store) := by
  have hsame : ∀ k, ¬ (changes.find? k).isSome = true →
      (changed.map (data q)).find? k = (s.view.documentSet.map (data q)).find? k ∧
        (matching q (s.stored changes).store).find? k = (matching q s.store).find? k :=
    fun k hk => find?_unchanged hfind (Option.not_isSome_iff_eq_none.mp hk)
  have hnew : ∀ k, (changes.find? k).isSome = true →
      (changed.map (data q)).find? k = (matching q (s.stored changes).store).find? k := by
    intro k hk
    obtain ⟨doc, hdoc⟩ := Option.isSome_iff_exists.mp hk
    obtain ⟨hview, hstore⟩ := find?_changed hfind hwait hdoc
    rw [hview, hstore]
  unfold Complete within at hcomplete
  unfold within
  cases hlimit : q.limitType with
  | none =>
      rw [hlimit] at hcomplete
      refine Keyed.Set.ext_find? fun k => ?_
      by_cases hk : (changes.find? k).isSome = true
      · exact hnew k hk
      · rw [(hsame k hk).1, (hsame k hk).2, hcomplete]
  | first =>
      rw [hlimit] at hcomplete
      refine Keyed.Set.take_changed (fun k => (changes.find? k).isSome = true) hcomplete hsame hnew ?_
      intro hsize l hl x hx hchanged
      obtain ⟨last, hlast, rfl⟩ : ∃ last, s.view.documentSet.last? = some last ∧
          (data q).apply last = l := by
        have h : (s.view.documentSet.list.map (data q).apply).getLast? = some l := hl
        rw [List.getLast?_map, Option.map_eq_some_iff] at h
        exact h
      have hdocSize : s.view.documentSet.size = q.limit := by
        rw [← hsize]
        exact (List.length_map (data q).apply).symm
      have hlastDoc : View.lastDocInLimit q s.view.documentSet = some last := by
        unfold View.lastDocInLimit
        rw [if_pos ⟨hlimit, hdocSize⟩, hlast]
      obtain ⟨doc, hdoc, hkey, hstays⟩ := exists_stays hfind hwait hrefill
        (by unfold View.fullLimit; rw [hlastDoc]; rfl) hx hchanged
      refine ⟨_, hdoc, hkey, ?_⟩
      rcases hstays with rfl | houtside
      · exact Keyed.Set.le_last _ hl hx
      · unfold View.outsideLimit at houtside
        rw [hlastDoc, Bool.or_eq_false_iff] at houtside
        have hle : q.comparator.rank doc ≤ q.comparator.rank last := by simpa using houtside.1
        exact hle
  | last =>
      rw [hlimit] at hcomplete
      refine Keyed.Set.drop_changed (fun k => (changes.find? k).isSome = true) hcomplete hsame hnew ?_
      intro hsize l hl x hx hchanged
      obtain ⟨first, hfirst, rfl⟩ : ∃ first, s.view.documentSet.first? = some first ∧
          (data q).apply first = l := by
        have h : (s.view.documentSet.list.map (data q).apply).head? = some l := hl
        rw [List.head?_map, Option.map_eq_some_iff] at h
        exact h
      have hdocSize : s.view.documentSet.size = q.limit := by
        rw [← hsize]
        exact (List.length_map (data q).apply).symm
      have hfirstDoc : View.firstDocInLimit q s.view.documentSet = some first := by
        unfold View.firstDocInLimit
        rw [if_pos ⟨hlimit, hdocSize⟩, hfirst]
      obtain ⟨doc, hdoc, hkey, hstays⟩ := exists_stays hfind hwait hrefill
        (by unfold View.fullLimit; rw [hfirstDoc, Option.isSome_some, Bool.or_true]) hx hchanged
      refine ⟨_, hdoc, hkey, ?_⟩
      rcases hstays with rfl | houtside
      · exact Keyed.Set.first_le _ hl hx
      · unfold View.outsideLimit at houtside
        rw [hfirstDoc, Bool.or_eq_false_iff] at houtside
        have hle : q.comparator.rank first ≤ q.comparator.rank doc := by simpa using houtside.2
        exact hle

end

/-! ### Every run -/

/-- One event, on a session that is right and complete. -/
theorem complete_step {s : Session q} (hcoherent : Coherent s) (hcomplete : Complete s)
    (event : Event K V) (hheld : NoneHeldBack s event) :
    (∃ key, s.step event = .error (.modifiedNotFound key)) ∨
    ∃ t, s.step event = .ok t ∧ Coherent t ∧ Complete t := by
  cases event with
  | online onlineState =>
      obtain ⟨t, ht, htc, hstore, hdocs⟩ := online_ok hcoherent onlineState
      refine Or.inr ⟨t, ht, htc, ?_⟩
      unfold Complete
      rw [hdocs, hstore]
      exact hcomplete
  | changed changes targetChange =>
      obtain ⟨first, last, hfirst, hlast, -, -, -, hrounds⟩ := rounds_ok hcoherent changes
      obtain ⟨key, -, hfault⟩ | ⟨t, last', ht, htc, hlast', hstore, hdocs⟩ :=
        emit_ok hcoherent changes targetChange
      · exact Or.inl ⟨key, hfault⟩
      · obtain rfl : last = last' := Except.ok.inj (hlast.symm.trans hlast')
        refine Or.inr ⟨t, ht, htc, ?_⟩
        obtain ⟨changed, hcut, hfind⟩ := hfirst.documents
        unfold Complete
        rw [hdocs, hstore]
        rcases hrounds with ⟨hneeds, rfl⟩ | hsecond
        · rw [hcut, map_cut]
          exact within_changed hfind hheld hcomplete (hfirst.needsRefill.symm.trans hneeds)
        · refine map_round_executeQuery hsecond ?_
          intro d hd
          rw [hcut] at hd
          exact find?_matching_of_mem hfind hheld hcomplete (mem_of_mem_cut hd)

/--
As long as no change is held back, a view with a limit has, after every event, the first
documents of the local store that match its query, or the last, and one without a limit has
them all.
-/
theorem view_complete (q : Query K V R) (start : Start K V) (events : List (Event K V))
    (h : Guarded stepOrFault (fun r event => ∀ s, r = .ok s → NoneHeldBack s event)
      (listen q start) events) :
    (∃ key, Misled q start events key) ∨
    ∃ s, run q start events = .ok s ∧
      (s.view.documentSet.list.map fun d => (d.key, d.value)) =
        (within q (matching q s.store)).list := by
  have hstart : ∃ s, listen q start = .ok s ∧ Coherent s ∧ Complete s := by
    obtain ⟨s, last, hs, hcoherent, hstore, hround, hdocs⟩ := listen_ok q start
    refine ⟨s, hs, hcoherent, ?_⟩
    unfold Complete
    rw [hdocs, hstore]
    exact map_round_executeQuery hround fun d hd => absurd hd List.not_mem_nil
  have hrun : Always stepOrFault (fun r => (∃ key, r = .error (.modifiedNotFound key)) ∨
      ∃ s, r = .ok s ∧ Coherent s ∧ Complete s) (listen q start) events := by
    refine always_of_guarded ?_ events _ (Or.inr hstart) h
    rintro r event (⟨key, rfl⟩ | ⟨s, rfl, hcoherent, hcomplete⟩) hheld
    · exact Or.inl ⟨key, rfl⟩
    · exact complete_step hcoherent hcomplete event (hheld s rfl)
  rcases hrun.last with ⟨key, hfault⟩ | ⟨s, hs, -, hcomplete⟩
  · exact Or.inl ⟨key, misled_of_fault hfault⟩
  · exact Or.inr ⟨s, hs, congrArg Keyed.Set.list hcomplete⟩

/-! A query for the one smallest number, over two numbers the first of which is deleted. -/

def smallest : Query Nat Nat (Nat ×ₗ Nat) where
  admits _ _ := true
  rank k v := toLex (v, k)
  key_eq h := congrArg (fun x => (ofLex x).2) h
  limitType := .first
  limit := 1

def twoNumbers : Start Nat Nat where
  store := (Keyed.Set.empty.insert ⟨1, .foundDocument, 5, .synced⟩).insert
    ⟨2, .foundDocument, 7, .synced⟩
  remoteKeys := .empty
  mirrorSynced := false
  resumeToken := []
  options := ⟨false, false, false⟩
  onlineState := .online

def firstDeleted : Event Nat Nat :=
  .changed (Keyed.Set.empty.insert ⟨1, .noDocument, 0, .synced⟩) none

theorem view_complete_firstDeleted :
    ((run smallest twoNumbers [firstDeleted]).toOption.map shown = some [(2, 7)]) ∧
    ((∃ key, Misled smallest twoNumbers [firstDeleted] key) ∨
    ∃ s, run smallest twoNumbers [firstDeleted] = .ok s ∧
      (s.view.documentSet.list.map fun d => (d.key, d.value)) =
        (within smallest (matching smallest s.store)).list) := by
  refine ⟨by decide, view_complete smallest twoNumbers [firstDeleted] ?_⟩
  rw [guarded_cons]
  refine ⟨?_, guarded_nil⟩
  intro s _ doc hdoc old _ _
  obtain rfl : doc = ⟨1, .noDocument, 0, .synced⟩ :=
    (Keyed.Set.mem_insert.mp hdoc).resolve_right fun h => absurd h.1 List.not_mem_nil
  simp [shouldWaitForSyncedDocument, Document.hasCommittedMutations]

end Session

end Firebase
