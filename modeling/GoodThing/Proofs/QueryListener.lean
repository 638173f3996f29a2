/-
A listener's caller has what the view has.

A caller who takes a document out at its old position and puts it in at its new one, for
one change after the other, ends with the view's documents in the view's order.  Changes of
metadata alone are not among them, and neither are snapshots that hold nothing else, so the
two agree on keys and values only; the order of the query looks at nothing else either.

The second part is about the limit.  The view asks the local store again when a document
has left a full limit, and only then.
-/
import GoodThing.Firebase.QueryListener
import GoodThing.Proofs.View

namespace Firebase

open ViewDocumentChanges

variable {K V R : Type} [LinearOrder R] {q : Query K V R}

/-! ### Keys and values -/

/-- The order of the query, on keys and values alone. -/
def dataOrder (q : Query K V R) : Keyed.Order (K × V) K R :=
  ⟨Prod.fst, fun x => q.rank x.1 x.2, q.key_eq⟩

/-- A document without its metadata. -/
def data (q : Query K V R) : Keyed.Set.Proj q.comparator (dataOrder q) :=
  ⟨fun d => (d.key, d.value), fun _ => rfl, fun _ => rfl⟩

@[simp] theorem apply_data (d : Document K V) : (data q).apply d = (d.key, d.value) := rfl

variable [LinearOrder K]

/-! ### Replaying changes by position -/

theorem list_map_erase {docs : DocumentSet q} {k : K} {i : Nat} (h : docs.indexOf? k = some i) :
    ((docs.erase k).map (data q)).list = (docs.map (data q)).list.eraseIdx i := by
  rw [Keyed.Set.map_erase]
  exact Keyed.Set.list_erase (by rw [Keyed.Set.indexOf?_map, h])

theorem list_map_insert {docs : DocumentSet q} {doc : Document K V}
    (h : docs.find? doc.key = none) : ∃ i, (docs.insert doc).indexOf? doc.key = some i ∧
      ((docs.insert doc).map (data q)).list =
        (docs.map (data q)).list.insertIdx i (doc.key, doc.value) := by
  have hnone : (docs.map (data q)).find? ((dataOrder q).key ((data q).apply doc)) = none := by
    rw [Keyed.Set.find?_map]
    show (docs.find? doc.key).map _ = none
    rw [h, Option.map_none]
  obtain ⟨i, hi, -, hlist⟩ := Keyed.Set.list_insert hnone
  rw [← Keyed.Set.map_insert] at hi hlist
  rw [Keyed.Set.indexOf?_map] at hi
  exact ⟨i, hi, hlist⟩

/-- What the changes still to come say of the documents so far and those at the end. -/
structure Pending (tracker new : DocumentSet q) (changes : List (DocumentViewChange K V)) :
    Prop where
  nodup : (changes.map fun c => c.document.key).Nodup
  change : ∀ c ∈ changes,
    Describes (tracker.find? c.document.key) (new.find? c.document.key) (some c)
  rest : ∀ k, k ∉ changes.map (fun c => c.document.key) →
    (tracker.map (data q)).find? k = (new.map (data q)).find? k

/-- The first of the changes is done, or makes no difference. -/
theorem Pending.next {tracker next new : DocumentSet q} {c : DocumentViewChange K V}
    {rest : List (DocumentViewChange K V)} (h : Pending tracker new (c :: rest))
    (hself : (next.map (data q)).find? c.document.key = (new.map (data q)).find? c.document.key)
    (hframe : ∀ k, k ≠ c.document.key → next.find? k = tracker.find? k) :
    Pending next new rest := by
  obtain ⟨hnot, hrest⟩ := List.nodup_cons.mp h.nodup
  refine ⟨hrest, ?_, ?_⟩
  · intro c' hc'
    have hne : c'.document.key ≠ c.document.key := by
      intro heq
      exact hnot (List.mem_map.mpr ⟨c', hc', heq⟩)
    rw [hframe _ hne]
    exact h.change c' (List.mem_cons_of_mem c hc')
  · intro k hk
    by_cases heq : k = c.document.key
    · rw [heq, hself]
    · rw [Keyed.Set.find?_map, hframe k heq, ← Keyed.Set.find?_map]
      exact h.rest k fun hmem => (List.mem_cons.mp hmem).elim heq hk

namespace ViewSnapshot

/-- A document that was there and still is: out at its old position, in at its new one. -/
theorem laterChanges_move {s : ViewSnapshot q} {includeMetadataChanges : Bool}
    {tracker : DocumentSet q} {o d : Document K V} {type : ChangeType}
    {rest : List (DocumentViewChange K V)} {cs : List (DocumentChange K V)}
    (hskip : ¬ (!includeMetadataChanges && decide (type = .metadata)) = true)
    (hadded : type ≠ .added) (hremoved : type ≠ .removed) (hold : tracker.find? d.key = some o)
    (hcs : s.laterChanges includeMetadataChanges (tracker.insert d) rest = .ok cs) :
    ∃ c, s.laterChanges includeMetadataChanges tracker (⟨d, type⟩ :: rest) = .ok (c :: cs) ∧
      c.replay (tracker.map (data q)).list = ((tracker.insert d).map (data q)).list := by
  obtain ⟨i, hi⟩ : ∃ i, tracker.indexOf? d.key = some i := by
    rw [← Option.isSome_iff_exists, Keyed.Set.isSome_indexOf?, Keyed.Set.contains, hold]
    rfl
  have herased : (tracker.erase d.key).insert d = tracker.insert d := by
    refine Keyed.Set.ext_find? fun k => ?_
    rw [Keyed.Set.find?_insert, Keyed.Set.find?_insert, Keyed.Set.find?_erase, key_comparator]
    by_cases hk : k = d.key
    · rw [if_pos hk, if_pos hk]
    · rw [if_neg hk, if_neg hk, if_neg hk]
  have hnone : (tracker.erase d.key).find? d.key = none := by
    rw [Keyed.Set.find?_erase, if_pos rfl]
  obtain ⟨j, hj, hinsert⟩ := list_map_insert hnone
  rw [herased] at hj hinsert
  refine ⟨s.documentChange ⟨d, type⟩ (some i) (some j), ?_, ?_⟩
  · unfold laterChanges
    rw [if_neg hskip]
    have hold : oldIndex tracker ⟨d, type⟩ = .ok (some i) := by
      unfold oldIndex
      rw [if_neg hadded, hi]
    rw [hold]
    simp only [if_neg hadded, if_neg hremoved, herased, hj]
    show (s.laterChanges includeMetadataChanges (tracker.insert d) rest >>= _) = _
    rw [hcs]
    rfl
  · show ((tracker.map (data q)).list.eraseIdx i).insertIdx j (d.key, d.value) = _
    rw [← list_map_erase hi, ← hinsert]

/-- Every position is found, and the caller's list becomes that of the view. -/
theorem laterChanges_ok (s : ViewSnapshot q) (includeMetadataChanges : Bool)
    (new : DocumentSet q) : ∀ (changes : List (DocumentViewChange K V)) (tracker : DocumentSet q),
      Pending tracker new changes →
      ∃ cs, s.laterChanges includeMetadataChanges tracker changes = .ok cs ∧
        cs.foldl DocumentChange.replay (tracker.map (data q)).list = (new.map (data q)).list := by
  intro changes
  induction changes with
  | nil =>
      intro tracker h
      refine ⟨[], rfl, ?_⟩
      have hsame : tracker.map (data q) = new.map (data q) :=
        Keyed.Set.ext_find? fun k => h.rest k (by simp)
      rw [List.foldl_nil, hsame]
  | cons c rest ih =>
      intro tracker h
      have hc := h.change c List.mem_cons_self
      unfold laterChanges
      by_cases hskip : (!includeMetadataChanges && decide (c.type = .metadata)) = true
      · -- A change of metadata that was not asked for.
        rw [if_pos hskip]
        refine ih tracker (h.next ?_ fun _ _ => rfl)
        have htype : c.type = .metadata := by
          rw [Bool.and_eq_true, decide_eq_true_eq] at hskip
          exact hskip.2
        generalize hold : tracker.find? c.document.key = old at hc
        generalize hnew : new.find? c.document.key = last at hc
        cases hc with
        | metadata o d hvalue =>
            have ho : o.key = d.key := Keyed.Set.key_of_find? hold
            rw [Keyed.Set.find?_map, Keyed.Set.find?_map, hold, hnew, Option.map_some,
              Option.map_some, apply_data, apply_data, ho, hvalue]
        | added d => cases htype
        | modified o d => cases htype
        | removed o d => cases htype
      · generalize hold : tracker.find? c.document.key = old at hc
        generalize hnew : new.find? c.document.key = last at hc
        -- After a document is put in, it is as it will be in the end.
        have hput : last = some c.document → Pending (tracker.insert c.document) new rest := by
          intro hlast
          refine h.next ?_ ?_
          · rw [Keyed.Set.find?_map, Keyed.Set.find?_map, Keyed.Set.find?_insert, key_comparator,
              if_pos rfl, hnew, hlast]
          · intro k hk
            rw [Keyed.Set.find?_insert, key_comparator, if_neg hk]
        cases hc with
        | added d =>
            obtain ⟨i, hi, hlist⟩ := list_map_insert hold
            obtain ⟨cs, hcs, hreplay⟩ := ih _ (hput rfl)
            refine ⟨s.documentChange ⟨d, .added⟩ none (some i) :: cs, ?_, ?_⟩
            · rw [if_neg hskip]
              show (s.laterChanges includeMetadataChanges (tracker.insert d) rest >>= _) = _
              rw [hcs, ← hi]
              rfl
            · rw [List.foldl_cons, ← hreplay, hlist]
              rfl
        | modified o d =>
            obtain ⟨cs, hcs, hreplay⟩ := ih _ (hput rfl)
            obtain ⟨change, hchange, hlist⟩ := laterChanges_move hskip (by simp) (by simp) hold hcs
            rw [← laterChanges, hchange]
            exact ⟨_, rfl, by rw [List.foldl_cons, hlist, hreplay]⟩
        | metadata o d hvalue =>
            obtain ⟨cs, hcs, hreplay⟩ := ih _ (hput rfl)
            obtain ⟨change, hchange, hlist⟩ := laterChanges_move hskip (by simp) (by simp) hold hcs
            rw [← laterChanges, hchange]
            exact ⟨_, rfl, by rw [List.foldl_cons, hlist, hreplay]⟩
        | removed o d =>
            obtain ⟨i, hi⟩ : ∃ i, tracker.indexOf? d.key = some i := by
              rw [← Option.isSome_iff_exists, Keyed.Set.isSome_indexOf?, Keyed.Set.contains, hold]
              rfl
            obtain ⟨cs, hcs, hreplay⟩ := ih (tracker.erase d.key) (h.next (by
                rw [Keyed.Set.find?_map, Keyed.Set.find?_map, Keyed.Set.find?_erase, if_pos rfl,
                  hnew])
              (by
                intro k hk
                rw [Keyed.Set.find?_erase, if_neg hk]))
            refine ⟨s.documentChange ⟨d, .removed⟩ (some i) none :: cs, ?_, ?_⟩
            · have hold : oldIndex tracker ⟨d, .removed⟩ = .ok (some i) := by
                unfold oldIndex
                rw [if_neg (by simp), hi]
              rw [if_neg hskip, hold]
              show (s.laterChanges includeMetadataChanges (tracker.erase d.key) rest >>= _) = _
              rw [hcs]
              rfl
            · rw [List.foldl_cons, ← hreplay, list_map_erase hi]
              rfl

/-- Additions in the order of the query, appended one after the other. -/
theorem firstChanges_ok (s : ViewSnapshot q) : ∀ (docs : List (Document K V)) (index : Nat)
    (last : Option (Document K V)) (items : List (K × V)), docs.Pairwise q.comparator.Before →
      (∀ l ∈ last, ∀ d ∈ docs, q.comparator.Before l d) → items.length = index →
      ∃ cs, s.firstChanges index last (docs.map fun d => ⟨d, .added⟩) = .ok cs ∧
        cs.foldl DocumentChange.replay items = items ++ docs.map (data q).apply := by
  intro docs
  induction docs with
  | nil => intro index last items _ _ _; exact ⟨[], rfl, (List.append_nil items).symm⟩
  | cons doc rest ih =>
      intro index last items hsorted hlast hitems
      obtain ⟨hdoc, hrest⟩ := List.pairwise_cons.mp hsorted
      obtain ⟨cs, hcs, hreplay⟩ := ih (index + 1) (some doc) (items ++ [(doc.key, doc.value)])
        hrest (fun l hl d hd => by cases hl; exact hdoc d hd) (by simp [hitems])
      have hbefore : ¬ (last.any fun l =>
          !decide (q.comparator.rank l < q.comparator.rank doc)) = true := by
        rw [Option.any_eq_true]
        rintro ⟨l, hl, hnot⟩
        have hlt : q.comparator.rank l < q.comparator.rank doc := hlast l hl doc List.mem_cons_self
        simp [hlt] at hnot
      refine ⟨s.documentChange ⟨doc, .added⟩ none (some index) :: cs, ?_, ?_⟩
      · rw [List.map_cons]
        unfold firstChanges
        rw [if_neg (by simp), if_neg hbefore]
        show (s.firstChanges _ _ _ >>= _) = _
        rw [hcs]
        rfl
      · have hput : (s.documentChange ⟨doc, .added⟩ none (some index)).replay items =
            items ++ [(doc.key, doc.value)] := by
          show items.insertIdx index (doc.key, doc.value) = _
          rw [← hitems, List.insertIdx_length_self]
        rw [List.foldl_cons, hput, hreplay, List.map_cons, apply_data, List.append_assoc,
          List.singleton_append]

/-- A snapshot of changes, as the caller sees it: metadata left out or not. -/
structure Raised (old new : DocumentSet q) (changes : Keyed.Set (changeOrder q))
    (s : ViewSnapshot q) : Prop where
  oldDocuments : s.oldDocuments = old
  documentChanges : s.documentChanges = changes.list ∨
    s.documentChanges = changes.list.filter fun c => c.type ≠ .metadata
  describes (k : K) : Describes (old.find? k) (new.find? k) (changes.find? k)

/-- The additions of all documents, in their order. -/
def additions (docs : DocumentSet q) : Keyed.Set (changeOrder q) where
  list := docs.list.map fun d => ⟨d, .added⟩
  sorted := by
    rw [List.pairwise_map]
    refine docs.sorted.imp fun {a b} hab => ?_
    exact Prod.Lex.toLex_lt_toLex.mpr (Or.inr ⟨rfl, hab⟩)
  nodup := by
    rw [List.map_map]
    exact docs.nodup

theorem find?_additions (docs : DocumentSet q) (k : K) :
    (additions docs).find? k = (docs.find? k).map fun d => ⟨d, .added⟩ := List.find?_map

/-- From nothing, the changes are the additions of all documents. -/
theorem eq_additions {old new : DocumentSet q} {changes : Keyed.Set (changeOrder q)}
    (hold : old.list = []) (h : ∀ k, Describes (old.find? k) (new.find? k) (changes.find? k)) :
    changes = additions new := by
  refine Keyed.Set.ext_find? fun k => ?_
  have hk := h k
  have hnone : old.find? k = none := by
    rw [Keyed.Set.find?, hold]
    rfl
  rw [find?_additions]
  rw [hnone] at hk
  generalize new.find? k = n at hk
  generalize changes.find? k = c at hk
  cases hk with
  | same => rfl
  | added d => rfl

/-! ### Following changes by key -/

/-- A change without its positions. -/
def told (c : DocumentChange K V) : DocumentChangeType × Document K V := (c.type, c.document)

def tells (c : DocumentViewChange K V) : DocumentChangeType × Document K V :=
  (documentChangeTypeForChange c.type, c.document)

theorem bind_eq_ok {α β ε : Type} {x : Except ε α} {f : α → Except ε β} {b : β}
    (h : x >>= f = .ok b) : ∃ a, x = .ok a ∧ f a = .ok b := by
  cases x with
  | error fault => cases h
  | ok a => exact ⟨a, rfl, h⟩

theorem map_firstChanges (s : ViewSnapshot q) : ∀ (changes : List (DocumentViewChange K V))
    (index : Nat) (last : Option (Document K V)) (cs : List (DocumentChange K V)),
      s.firstChanges index last changes = .ok cs → cs.map told = changes.map tells := by
  intro changes
  induction changes with
  | nil =>
      intro index last cs h
      obtain rfl := Except.ok.inj h
      rfl
  | cons c rest ih =>
      intro index last cs h
      unfold firstChanges at h
      split_ifs at h
      obtain ⟨later, hlater, h⟩ := bind_eq_ok h
      obtain rfl := Except.ok.inj h
      rw [List.map_cons, List.map_cons, ih _ _ later hlater]
      rfl

theorem map_laterChanges (s : ViewSnapshot q) : ∀ (changes : List (DocumentViewChange K V))
    (tracker : DocumentSet q) (cs : List (DocumentChange K V)),
      s.laterChanges false tracker changes = .ok cs →
        cs.map told = (changes.filter fun c => c.type ≠ .metadata).map tells := by
  intro changes
  induction changes with
  | nil =>
      intro tracker cs h
      obtain rfl := Except.ok.inj h
      rfl
  | cons c rest ih =>
      intro tracker cs h
      unfold laterChanges at h
      by_cases hskip : c.type = .metadata
      · rw [if_pos (by simp [hskip])] at h
        rw [ih tracker cs h, List.filter_cons_of_neg (by simp [hskip])]
      · rw [if_neg (by simp [hskip])] at h
        obtain ⟨oldIndex, -, h⟩ := bind_eq_ok h
        obtain ⟨later, hlater, h⟩ := bind_eq_ok h
        obtain rfl := Except.ok.inj h
        rw [List.map_cons, ih _ later hlater, List.filter_cons_of_pos (by simp [hskip])]
        rfl

/-- By position: what a caller with the old documents makes of the changes are the new ones. -/
theorem documentChangeList_byPosition {old new : DocumentSet q} {changes : Keyed.Set (changeOrder q)}
    {s : ViewSnapshot q} (h : Raised old new changes s) :
    ∃ cs, s.documentChangeList = .ok cs ∧
      cs.foldl DocumentChange.replay (old.map (data q)).list = (new.map (data q)).list := by
  unfold documentChangeList forEachChange
  rw [Bool.false_and, if_neg (by simp), h.oldDocuments]
  by_cases hempty : old.isEmpty = true
  · rw [if_pos hempty]
    have hnil : old.list = [] := List.isEmpty_iff.mp hempty
    have hlist : changes.list = new.list.map fun d => ⟨d, .added⟩ :=
      congrArg Keyed.Set.list (eq_additions hnil h.describes)
    have hchanges : s.documentChanges = new.list.map fun d => ⟨d, .added⟩ := by
      rcases h.documentChanges with heq | heq
      · rw [heq, hlist]
      · rw [heq, hlist, List.filter_eq_self]
        intro c hc
        obtain ⟨d, -, rfl⟩ := List.mem_map.mp hc
        rfl
    obtain ⟨cs, hcs, hreplay⟩ := s.firstChanges_ok new.list 0 none [] new.sorted (by simp) rfl
    refine ⟨cs, ?_, ?_⟩
    · rw [hchanges]
      exact hcs
    · show cs.foldl _ (old.list.map _) = _
      rw [hnil]
      exact hreplay
  · rw [if_neg hempty]
    refine s.laterChanges_ok false new s.documentChanges old ?_
    have hsub : s.documentChanges.Sublist changes.list := by
      rcases h.documentChanges with heq | heq
      · rw [heq]
      · rw [heq]
        exact List.filter_sublist
    refine ⟨changes.nodup.sublist (hsub.map _), ?_, ?_⟩
    · intro c hc
      have hfind : changes.find? c.document.key = some c :=
        Keyed.Set.find?_key (o := changeOrder q) (hsub.subset hc)
      rw [← hfind]
      exact h.describes _
    · intro k hk
      have hdescribes := h.describes k
      -- Either the document has no change, or one of its metadata.
      have hchange : ∀ c, changes.find? k = some c → c.type = .metadata := by
        intro c hc
        by_contra hne
        refine hk (List.mem_map.mpr ⟨c, ?_, Keyed.Set.key_of_find? hc⟩)
        rcases h.documentChanges with heq | heq
        · rw [heq]
          exact Keyed.Set.mem_of_find? hc
        · rw [heq]
          exact List.mem_filter.mpr ⟨Keyed.Set.mem_of_find? hc, by simpa using hne⟩
      rw [Keyed.Set.find?_map, Keyed.Set.find?_map]
      generalize hold : old.find? k = o at hdescribes
      generalize hnew : new.find? k = n at hdescribes
      generalize changes.find? k = c at hdescribes hchange
      cases hdescribes with
      | same => rfl
      | metadata o d hvalue =>
          have hokey : o.key = k := Keyed.Set.key_of_find? hold
          have hdkey : d.key = k := Keyed.Set.key_of_find? hnew
          rw [Option.map_some, Option.map_some, apply_data, apply_data, hokey, hdkey, hvalue]
      | added d => cases hchange _ rfl
      | modified o d => cases hchange _ rfl
      | removed o d => cases hchange _ rfl

/-- The changes but for their positions, those of metadata left out. -/
theorem map_documentChangeList {old new : DocumentSet q} {changes : Keyed.Set (changeOrder q)}
    {s : ViewSnapshot q} (h : Raised old new changes s) {cs : List (DocumentChange K V)}
    (hcs : s.documentChangeList = .ok cs) :
    cs.map told = (changes.filter fun c => c.type ≠ .metadata).list.map tells := by
  unfold documentChangeList forEachChange at hcs
  rw [Bool.false_and, if_neg (by simp), h.oldDocuments] at hcs
  have hfilter : (s.documentChanges.filter fun c => c.type ≠ .metadata) =
      changes.list.filter fun c => c.type ≠ .metadata := by
    rcases h.documentChanges with heq | heq
    · rw [heq]
    · rw [heq, List.filter_filter]
      simp only [Bool.and_self]
  show _ = (changes.list.filter _).map tells
  rw [← hfilter]
  by_cases hempty : old.isEmpty = true
  · rw [if_pos hempty] at hcs
    rw [s.map_firstChanges _ _ _ cs hcs]
    congr 1
    refine (List.filter_eq_self.mpr ?_).symm
    intro c hc
    have hmem : c ∈ changes.list := by
      rcases h.documentChanges with heq | heq
      · rwa [heq] at hc
      · rw [heq] at hc
        exact (List.mem_filter.mp hc).1
    rw [eq_additions (List.isEmpty_iff.mp hempty) h.describes] at hmem
    obtain ⟨d, -, rfl⟩ := List.mem_map.mp hmem
    rfl
  · rw [if_neg hempty] at hcs
    exact s.map_laterChanges _ _ cs hcs

/-- What is known of a document is what its change says, or what was known before. -/
theorem foldl_record (k : K) : ∀ (cs : List (DocumentChange K V)) (known : K → Option V),
    ((cs.map fun c => c.document.key).Nodup) → cs.foldl DocumentChange.record known k =
      ((cs.map told).find? fun x => x.2.key = k).elim (known k)
        fun x => if x.1 = .removed then none else some x.2.value := by
  intro cs
  induction cs with
  | nil => intro known _; rfl
  | cons c rest ih =>
      intro known hnodup
      obtain ⟨hnot, hrest⟩ := List.nodup_cons.mp hnodup
      rw [List.foldl_cons, ih _ hrest, List.map_cons]
      by_cases hk : c.document.key = k
      · have hnone : ((rest.map told).find? fun x => x.2.key = k) = none := by
          rw [List.find?_eq_none]
          intro x hx
          obtain ⟨c', hc', rfl⟩ := List.mem_map.mp hx
          have hne : c'.document.key ≠ k :=
            fun heq => hnot (List.mem_map.mpr ⟨c', hc', heq.trans hk.symm⟩)
          rw [decide_eq_true_eq]
          exact hne
        rw [hnone, List.find?_cons_of_pos (by rw [decide_eq_true_eq]; exact hk), Option.elim_none,
          Option.elim_some]
        exact if_pos hk.symm
      · rw [List.find?_cons_of_neg (by rw [decide_eq_true_eq]; exact hk)]
        congr 1
        exact if_neg (Ne.symm hk)

/-- What a caller with the old documents makes of the changes are the new ones. -/
structure Replays (old new : DocumentSet q) (cs : List (DocumentChange K V)) : Prop where
  byPosition : cs.foldl DocumentChange.replay (old.map (data q)).list = (new.map (data q)).list
  byKey : ∀ known, (∀ k, known k = (old.find? k).map Document.value) →
    ∀ k, cs.foldl DocumentChange.record known k = (new.find? k).map Document.value
  once : (cs.map fun c => c.document.key).Nodup

theorem documentChangeList_ok {old new : DocumentSet q} {changes : Keyed.Set (changeOrder q)}
    {s : ViewSnapshot q} (h : Raised old new changes s) :
    ∃ cs, s.documentChangeList = .ok cs ∧ Replays old new cs := by
  obtain ⟨cs, hcs, hposition⟩ := documentChangeList_byPosition h
  have hmap := map_documentChangeList h hcs
  have honce : (cs.map fun c => c.document.key).Nodup := by
    have hkeys : (cs.map fun c => c.document.key) =
        (changes.filter fun c => c.type ≠ .metadata).list.map (changeOrder q).key := by
      have h := congrArg (List.map fun x => x.2.key) hmap
      rw [List.map_map, List.map_map] at h
      exact h
    rw [hkeys]
    exact (changes.filter _).nodup
  refine ⟨cs, hcs, hposition, ?_, honce⟩
  intro known hknown k
  rw [foldl_record k cs known honce, hmap, List.find?_map]
  have hfind := Keyed.Set.find?_filter changes (fun c => decide (c.type ≠ .metadata)) k
  have hdescribes := h.describes k
  show ((((changes.filter fun c => c.type ≠ .metadata).find? k)).map tells).elim _ _ = _
  rw [hfind, hknown]
  generalize old.find? k = o at hdescribes
  generalize new.find? k = n at hdescribes
  generalize changes.find? k = c at hdescribes
  cases hdescribes with
  | same => rfl
  | added d => rfl
  | modified o d => rfl
  | metadata o d hvalue => exact congrArg some hvalue
  | removed o d => rfl

/-- A first event adds all the documents. -/
theorem replays_initial (s : ViewSnapshot q) :
    ∃ cs, s.fromInitialDocuments.documentChangeList = .ok cs ∧
      Replays (.empty : DocumentSet q) s.documents cs := by
  have hlist : s.fromInitialDocuments.documentChanges = (additions s.documents).list := rfl
  refine documentChangeList_ok ⟨rfl, Or.inl hlist, fun k => ?_⟩
  rw [Keyed.Set.find?_empty, find?_additions]
  cases s.documents.find? k with
  | none => exact .same none
  | some d => exact .added d

end ViewSnapshot

end Firebase
