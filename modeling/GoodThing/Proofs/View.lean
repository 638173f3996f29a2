/-
What a view makes of changes.

`Describes` says what a change tells of a document: what it was, and what it is.  Changes
compose as the transitions they describe do, so whatever is merged along the way, the
change set tells the difference between the documents the view started from and those it
ends with, and no combination that is not supported can come up.

The rest is one statement for each part of `computeDocumentChanges`: a single document, the
loop over all of them, and the cut at the limit.
-/
import GoodThing.Firebase.View

namespace Firebase

variable {K V R : Type}

/-! ### Changes compose -/

/-- A document before, the same document after, and the change that tells the two apart. -/
inductive Describes : Option (Document K V) → Option (Document K V) →
    Option (DocumentViewChange K V) → Prop
  | same (d : Option (Document K V)) : Describes d d none
  | added (d : Document K V) : Describes none (some d) (some ⟨d, .added⟩)
  | modified (o d : Document K V) : Describes (some o) (some d) (some ⟨d, .modified⟩)
  | metadata (o d : Document K V) (h : o.value = d.value) :
      Describes (some o) (some d) (some ⟨d, .metadata⟩)
  | removed (o d : Document K V) : Describes (some o) none (some ⟨d, .removed⟩)

/-- One change after another is one change, or none. -/
theorem mergeChange_ok {a b c : Option (Document K V)} {old change : DocumentViewChange K V}
    (hold : Describes a b (some old)) (hchange : Describes b c (some change)) :
    ∃ merged, mergeChange old change = .ok merged ∧ Describes a c merged ∧
      ∀ m ∈ merged, m.document = old.document ∨ m.document = change.document := by
  cases hold with
  | added d =>
      cases hchange with
      | modified o e => exact ⟨some ⟨e, .added⟩, rfl, .added e, by simp⟩
      | metadata o e h => exact ⟨some ⟨e, .added⟩, rfl, .added e, by simp⟩
      | removed o e => exact ⟨none, rfl, .same none, by simp⟩
  | modified o d =>
      cases hchange with
      | modified o' e => exact ⟨some ⟨e, .modified⟩, rfl, .modified o e, by simp⟩
      | metadata o' e h => exact ⟨some ⟨e, .modified⟩, rfl, .modified o e, by simp⟩
      | removed o' e => exact ⟨some ⟨d, .removed⟩, rfl, .removed o d, by simp⟩
  | metadata o d h =>
      cases hchange with
      | modified o' e => exact ⟨some ⟨e, .modified⟩, rfl, .modified o e, by simp⟩
      | metadata o' e h' => exact ⟨some ⟨e, .metadata⟩, rfl, .metadata o e (h.trans h'), by simp⟩
      | removed o' e => exact ⟨some ⟨e, .removed⟩, rfl, .removed o e, by simp⟩
  | removed o d =>
      cases hchange with
      | added e => exact ⟨some ⟨e, .modified⟩, rfl, .modified o e, by simp⟩

variable [LinearOrder R] {q : Query K V R}

@[simp] theorem key_comparator (d : Document K V) : q.comparator.key d = d.key := rfl

variable [LinearOrder K]

@[simp] theorem key_ofKeys (k : K) : ofKeys.key k = k := rfl

@[simp] theorem key_changeByKey (c : DocumentViewChange K V) :
    changeByKey.key c = c.document.key := rfl

@[simp] theorem key_byKey (d : Document K V) : byKey.key d = d.key := rfl

/-- A change is added to those of the other documents, and composed with its own. -/
theorem addChange_ok {changes : DocumentViewChangeSet K V} {change : DocumentViewChange K V}
    {a b c : Option (Document K V)}
    (hold : Describes a b (changes.find? change.document.key))
    (hchange : Describes b c (some change)) :
    ∃ next, addChange changes change = .ok next ∧
      Describes a c (next.find? change.document.key) ∧
      ∀ k, k ≠ change.document.key → next.find? k = changes.find? k := by
  unfold addChange
  cases hfind : changes.find? change.document.key with
  | none =>
      rw [hfind] at hold
      cases hold with
      | same d =>
          refine ⟨changes.insert change, rfl, ?_, ?_⟩
          · rw [Keyed.Set.find?_insert, key_changeByKey, if_pos rfl]
            exact hchange
          · intro k hk
            rw [Keyed.Set.find?_insert, key_changeByKey, if_neg hk]
  | some old =>
      rw [hfind] at hold
      have hkey : old.document.key = change.document.key := Keyed.Set.key_of_find? hfind
      obtain ⟨merged, hmerge, hdescribes, hdocument⟩ := mergeChange_ok hold hchange
      simp only [hmerge]
      cases merged with
      | none =>
          refine ⟨changes.erase change.document.key, rfl, ?_, ?_⟩
          · rw [Keyed.Set.find?_erase, if_pos rfl]
            exact hdescribes
          · intro k hk
            rw [Keyed.Set.find?_erase, if_neg hk]
      | some m =>
          have hm : changeByKey.key m = change.document.key := by
            rw [key_changeByKey]
            rcases hdocument m rfl with h | h
            · rw [h, hkey]
            · rw [h]
          refine ⟨changes.insert m, rfl, ?_, ?_⟩
          · rw [Keyed.Set.find?_insert, hm, if_pos rfl]
            exact hdescribes
          · intro k hk
            rw [Keyed.Set.find?_insert, hm, if_neg hk]

/-! ### A change applied -/

/-- What holds of the documents and changes collected so far, `base` being the view's. -/
structure Tracks (base : DocumentSet q) (acc : ViewDocumentChanges q) : Prop where
  describes (k : K) : Describes (base.find? k) (acc.documentSet.find? k) (acc.changeSet.find? k)
  mutated (k : K) : acc.mutatedKeys.contains k =
    (acc.documentSet.find? k).any Document.hasLocalMutations

theorem contains_insert (keys : DocumentKeySet K) (key k : K) :
    (keys.insert key).contains k = if k = key then true else keys.contains k := by
  unfold Keyed.Set.contains
  rw [Keyed.Set.find?_insert, key_ofKeys]
  by_cases h : k = key
  · rw [if_pos h, if_pos h]
    rfl
  · rw [if_neg h, if_neg h]

theorem contains_erase (keys : DocumentKeySet K) (key k : K) :
    (keys.erase key).contains k = if k = key then false else keys.contains k := by
  unfold Keyed.Set.contains
  rw [Keyed.Set.find?_erase]
  by_cases h : k = key
  · rw [if_pos h, if_pos h]
    rfl
  · rw [if_neg h, if_neg h]

namespace ViewDocumentChanges

variable {base : DocumentSet q} {acc : ViewDocumentChanges q}

/-- The documents with one document put in or taken out. -/
def settle (docs : DocumentSet q) (key : K) : Option (Document K V) → DocumentSet q
  | some doc => docs.insert doc
  | none => docs.erase key

theorem find?_settle {docs : DocumentSet q} {key : K} {newDoc : Option (Document K V)}
    (hkey : ∀ d ∈ newDoc, d.key = key) (k : K) :
    (settle docs key newDoc).find? k = if k = key then newDoc else docs.find? k := by
  cases newDoc with
  | none => exact Keyed.Set.find?_erase docs key k
  | some doc =>
      show (docs.insert doc).find? k = _
      rw [Keyed.Set.find?_insert, key_comparator, hkey doc rfl]

theorem apply_ok (h : Tracks base acc) (change : DocumentViewChange K V)
    (newDoc : Option (Document K V)) (refill : Bool)
    (hkey : ∀ d ∈ newDoc, d.key = change.document.key)
    (hchange : Describes (acc.documentSet.find? change.document.key) newDoc (some change)) :
    ∃ next, acc.apply change newDoc refill = .ok next ∧ Tracks base next ∧
      next.documentSet = settle acc.documentSet change.document.key newDoc ∧
      next.needsRefill = (acc.needsRefill || refill) := by
  obtain ⟨changeSet, hadd, hdescribes, hframe⟩ :=
    addChange_ok (h.describes change.document.key) hchange
  unfold apply
  rw [hadd]
  have hdoc : ∀ k, Describes (base.find? k)
      ((settle acc.documentSet change.document.key newDoc).find? k) (changeSet.find? k) := by
    intro k
    rw [find?_settle hkey]
    by_cases hk : k = change.document.key
    · rw [if_pos hk, hk]
      exact hdescribes
    · rw [if_neg hk, hframe k hk]
      exact h.describes k
  cases newDoc with
  | none =>
      refine ⟨_, rfl, ⟨hdoc, ?_⟩, rfl, rfl⟩
      intro k
      show (acc.mutatedKeys.erase _).contains k = ((acc.documentSet.erase _).find? k).any _
      rw [contains_erase, Keyed.Set.find?_erase]
      by_cases hk : k = change.document.key
      · rw [if_pos hk, if_pos hk, Option.any_none]
      · rw [if_neg hk, if_neg hk]
        exact h.mutated k
  | some doc =>
      refine ⟨_, rfl, ⟨hdoc, ?_⟩, rfl, rfl⟩
      intro k
      show (if doc.hasLocalMutations = true then acc.mutatedKeys.insert doc.key
        else acc.mutatedKeys.erase doc.key).contains k = ((acc.documentSet.insert doc).find? k).any _
      rw [Keyed.Set.find?_insert, key_comparator]
      by_cases hk : k = doc.key
      · rw [if_pos hk, Option.any_some]
        by_cases hlocal : doc.hasLocalMutations = true
        · rw [if_pos hlocal, contains_insert, if_pos hk, hlocal]
        · rw [if_neg hlocal, contains_erase, if_pos hk]
          exact (Bool.eq_false_iff.mpr hlocal).symm
      · have hmutated := h.mutated k
        rw [if_neg hk]
        by_cases hlocal : doc.hasLocalMutations = true
        · rw [if_pos hlocal, contains_insert, if_neg hk, hmutated]
        · rw [if_neg hlocal, contains_erase, if_neg hk, hmutated]

/-! ### The cut at the limit -/

/-- The documents within the limit. -/
def cut (docs : DocumentSet q) : DocumentSet q :=
  match q.limitType with
  | .none => docs
  | .first => docs.take q.limit
  | .last => docs.drop (docs.size - q.limit)

theorem dropOut_ok : ∀ (i : Nat) {acc : ViewDocumentChanges q}, Tracks base acc →
    i ≤ acc.documentSet.size → ∃ next, acc.dropOut i = .ok next ∧ Tracks base next ∧
      next.needsRefill = acc.needsRefill ∧
      next.documentSet = if q.limitType = .first then
        acc.documentSet.take (acc.documentSet.size - i) else acc.documentSet.drop i := by
  intro i
  induction i with
  | zero =>
      intro acc h _
      refine ⟨acc, rfl, h, rfl, ?_⟩
      by_cases hfirst : q.limitType = .first
      · rw [if_pos hfirst]
        exact Keyed.Set.eq_of_list_eq (List.take_length).symm
      · rw [if_neg hfirst]
        rfl
  | succ i ih =>
      intro acc h hsize
      have hpos : acc.documentSet.list ≠ [] := by
        intro hnil
        have hzero : acc.documentSet.size = 0 := congrArg List.length hnil
        omega
      -- The document at the end that is cut, and what is left without it.
      obtain ⟨oldDoc, hend, hrest⟩ : ∃ oldDoc,
          (if q.limitType = .first then acc.documentSet.last? else acc.documentSet.first?) =
            some oldDoc ∧
          acc.documentSet.erase oldDoc.key = if q.limitType = .first then
            acc.documentSet.take (acc.documentSet.size - 1) else acc.documentSet.drop 1 := by
        by_cases hfirst : q.limitType = .first
        · refine ⟨acc.documentSet.list.getLast hpos, ?_, ?_⟩
          · rw [if_pos hfirst]
            exact List.getLast?_eq_getLast_of_ne_nil hpos
          · rw [if_pos hfirst]
            exact Keyed.Set.erase_last (List.getLast?_eq_getLast_of_ne_nil hpos)
        · refine ⟨acc.documentSet.list.head hpos, ?_, ?_⟩
          · rw [if_neg hfirst]
            exact List.head?_eq_some_head hpos
          · rw [if_neg hfirst]
            exact Keyed.Set.erase_first (List.head?_eq_some_head hpos)
      have hmem : oldDoc ∈ acc.documentSet := by
        by_cases hfirst : q.limitType = .first
        · rw [if_pos hfirst] at hend
          exact Keyed.Set.mem_of_last? hend
        · rw [if_neg hfirst] at hend
          exact Keyed.Set.mem_of_first? hend
      have hfind : acc.documentSet.find? oldDoc.key = some oldDoc := Keyed.Set.find?_key hmem
      obtain ⟨next, hnext, htracks, hdocs, hrefill⟩ :=
        apply_ok h ⟨oldDoc, .removed⟩ none false (by simp)
          (by rw [hfind]; exact .removed oldDoc oldDoc)
      have hnextDocs : next.documentSet = if q.limitType = .first then
          acc.documentSet.take (acc.documentSet.size - 1) else acc.documentSet.drop 1 :=
        hdocs.trans hrest
      have hnextSize : next.documentSet.size = acc.documentSet.size - 1 := by
        rw [hnextDocs]
        by_cases hfirst : q.limitType = .first
        · rw [if_pos hfirst]
          show (acc.documentSet.list.take _).length = _
          rw [List.length_take]
          exact min_eq_left (Nat.sub_le _ _)
        · rw [if_neg hfirst]
          exact List.length_drop
      obtain ⟨last, hlast, hlastTracks, hlastRefill, hlastDocs⟩ := ih htracks (by omega)
      refine ⟨last, ?_, hlastTracks, ?_, ?_⟩
      · unfold dropOut
        simp only [hend]
        rw [hnext]
        exact hlast
      · rw [hlastRefill, hrefill, Bool.or_false]
      · rw [hlastDocs, hnextSize, hnextDocs]
        by_cases hfirst : q.limitType = .first
        · simp only [if_pos hfirst]
          refine Keyed.Set.eq_of_list_eq ?_
          show (acc.documentSet.list.take _).take _ = acc.documentSet.list.take _
          rw [List.take_take]
          congr 1
          omega
        · simp only [if_neg hfirst]
          refine Keyed.Set.eq_of_list_eq ?_
          show (acc.documentSet.list.drop _).drop _ = acc.documentSet.list.drop _
          rw [List.drop_drop]
          congr 1
          omega

theorem meetLimit_ok (h : Tracks base acc) : ∃ next, acc.meetLimit = .ok next ∧
    Tracks base next ∧ next.needsRefill = acc.needsRefill ∧
    next.documentSet = cut acc.documentSet := by
  unfold meetLimit cut
  by_cases hover : q.limitType ≠ .none ∧ q.limit < acc.documentSet.size
  · rw [if_pos hover]
    obtain ⟨next, hnext, htracks, hrefill, hdocs⟩ :=
      dropOut_ok (acc.documentSet.size - q.limit) h (Nat.sub_le _ _)
    refine ⟨next, hnext, htracks, hrefill, ?_⟩
    rw [hdocs]
    cases hlimit : q.limitType with
    | none => exact absurd hlimit hover.1
    | first =>
        rw [if_pos rfl]
        congr 1
        omega
    | last => rw [if_neg (by simp)]
  · rw [if_neg hover]
    refine ⟨acc, rfl, h, rfl, ?_⟩
    cases hlimit : q.limitType with
    | none => rfl
    | first =>
        have hle : acc.documentSet.size ≤ q.limit := by
          rw [hlimit] at hover
          exact not_lt.mp fun hlt => hover ⟨by simp, hlt⟩
        exact Keyed.Set.eq_of_list_eq (List.take_of_length_le hle).symm
    | last =>
        have hle : acc.documentSet.size ≤ q.limit := by
          rw [hlimit] at hover
          exact not_lt.mp fun hlt => hover ⟨by simp, hlt⟩
        show acc.documentSet = acc.documentSet.drop (acc.documentSet.size - q.limit)
        rw [Nat.sub_eq_zero_of_le hle]
        rfl

end ViewDocumentChanges

/-! ### One document, and all of them -/

namespace View

open ViewDocumentChanges

/-- The view's changes as they are collected: none yet. -/
theorem tracks_start {v : View q}
    (hmutated : ∀ k, v.mutatedKeys.contains k =
      (v.documentSet.find? k).any Document.hasLocalMutations) :
    Tracks v.documentSet
      { documentSet := v.documentSet, changeSet := .empty, mutatedKeys := v.mutatedKeys
        needsRefill := false } := ⟨fun _ => .same _, hmutated⟩

variable [DecidableEq V]

/-- The document a view has after a change, from the one it had. -/
def settled (v : View q) (oldDoc : Option (Document K V)) (doc : Document K V) :
    Option (Document K V) :=
  if q.matchesDocument doc then
    match oldDoc with
    | none => some doc
    | some old =>
        if old.value ≠ doc.value then
          if shouldWaitForSyncedDocument doc old then some old else some doc
        else if v.mutatedKeys.contains doc.key ≠ v.hasPendingMutations doc then some doc
        else some old
  else none

/-- A change after which documents beyond the limit have to be looked at. -/
def refills (old : DocumentSet q) (doc : Document K V) : Bool :=
  match old.find? doc.key with
  | none => false
  | some oldDoc =>
      if q.matchesDocument doc then
        oldDoc.value ≠ doc.value && !shouldWaitForSyncedDocument doc oldDoc && outsideLimit old doc
      else fullLimit old

variable {base : DocumentSet q} {old : DocumentSet q} {acc : ViewDocumentChanges q}

theorem documentChange_ok (v : View q) (h : Tracks base acc) {doc : Document K V}
    (hacc : acc.documentSet.find? doc.key = old.find? doc.key) :
    ∃ next, v.documentChange old acc doc = .ok next ∧ Tracks base next ∧
      (∀ k, next.documentSet.find? k = if k = doc.key then v.settled (old.find? doc.key) doc
        else acc.documentSet.find? k) ∧
      next.needsRefill = (acc.needsRefill || refills old doc) := by
  unfold documentChange settled refills
  -- Nothing is changed.
  have hstay : ∀ k, acc.documentSet.find? k =
      if k = doc.key then old.find? doc.key else acc.documentSet.find? k := by
    intro k
    by_cases hk : k = doc.key
    · rw [if_pos hk, hk, hacc]
    · rw [if_neg hk]
  -- The document is put in, with a change of a type that fits.
  have hput : ∀ type refill, Describes (old.find? doc.key) (some doc) (some ⟨doc, type⟩) →
      ∃ next, acc.apply ⟨doc, type⟩ (some doc) refill = .ok next ∧ Tracks base next ∧
        (∀ k, next.documentSet.find? k = if k = doc.key then some doc
          else acc.documentSet.find? k) ∧
        next.needsRefill = (acc.needsRefill || refill) := by
    intro type refill hdescribes
    obtain ⟨next, hnext, htracks, hdocs, hrefill⟩ :=
      apply_ok h ⟨doc, type⟩ (some doc) refill (by simp) (by rw [hacc]; exact hdescribes)
    refine ⟨next, hnext, htracks, ?_, hrefill⟩
    intro k
    rw [hdocs, find?_settle (by simp)]
  cases hold : old.find? doc.key with
  | none =>
      rw [hold] at hput hstay
      cases hmatch : q.matchesDocument doc with
      | true =>
          obtain ⟨next, hnext, htracks, hdocs, hrefill⟩ := hput .added false (.added doc)
          exact ⟨next, hnext, htracks, hdocs, hrefill⟩
      | false => exact ⟨acc, rfl, h, hstay, (Bool.or_false _).symm⟩
  | some oldDoc =>
      rw [hold] at hput hstay
      cases hmatch : q.matchesDocument doc with
      | true =>
          simp only [if_true]
          by_cases hvalue : oldDoc.value ≠ doc.value
          · rw [if_pos hvalue, if_pos hvalue]
            by_cases hwait : shouldWaitForSyncedDocument doc oldDoc = true
            · rw [if_pos hwait, if_pos hwait]
              exact ⟨acc, rfl, h, hstay, by simp [hwait]⟩
            · rw [if_neg hwait, if_neg hwait]
              obtain ⟨next, hnext, htracks, hdocs, hrefill⟩ :=
                hput .modified (outsideLimit old doc) (.modified oldDoc doc)
              exact ⟨next, hnext, htracks, hdocs, by rw [hrefill]; simp [hvalue, hwait]⟩
          · rw [if_neg hvalue, if_neg hvalue]
            by_cases hpending : v.mutatedKeys.contains doc.key ≠ v.hasPendingMutations doc
            · rw [if_pos hpending, if_pos hpending]
              obtain ⟨next, hnext, htracks, hdocs, hrefill⟩ :=
                hput .metadata false (.metadata oldDoc doc (not_not.mp hvalue))
              exact ⟨next, hnext, htracks, hdocs, by rw [hrefill]; simp [not_not.mp hvalue]⟩
            · rw [if_neg hpending, if_neg hpending]
              exact ⟨acc, rfl, h, hstay, by simp [not_not.mp hvalue]⟩
      | false =>
          have hkey : oldDoc.key = doc.key := Keyed.Set.key_of_find? hold
          obtain ⟨next, hnext, htracks, hdocs, hrefill⟩ :=
            apply_ok h ⟨oldDoc, .removed⟩ none (fullLimit old) (by simp)
              (by rw [hkey, hacc, hold]; exact .removed oldDoc oldDoc)
          refine ⟨next, hnext, htracks, ?_, hrefill⟩
          intro k
          rw [hdocs, find?_settle (by simp), hkey]
          rfl

/-- The documents after all the changes, before the cut. -/
theorem foldlM_documentChange_ok (v : View q) (old : DocumentSet q) :
    ∀ (docs : List (Document K V)) {acc : ViewDocumentChanges q}, Tracks base acc →
      (docs.map Document.key).Nodup →
      (∀ doc ∈ docs, acc.documentSet.find? doc.key = old.find? doc.key) →
      ∃ next, docs.foldlM (v.documentChange old) acc = .ok next ∧ Tracks base next ∧
        (∀ k, next.documentSet.find? k = (docs.find? fun d => d.key = k).elim
          (acc.documentSet.find? k) (v.settled (old.find? k))) ∧
        next.needsRefill = (acc.needsRefill || docs.any (refills old)) := by
  intro docs
  induction docs with
  | nil => intro acc h _ _; exact ⟨acc, rfl, h, fun k => rfl, by simp⟩
  | cons doc rest ih =>
      intro acc h hnodup hacc
      obtain ⟨hnot, hrest⟩ := List.nodup_cons.mp hnodup
      obtain ⟨mid, hmid, htracks, hdocs, hrefill⟩ :=
        v.documentChange_ok h (hacc doc List.mem_cons_self)
      have hne : ∀ d ∈ rest, d.key ≠ doc.key := by
        intro d hd heq
        exact hnot (heq ▸ List.mem_map_of_mem hd)
      obtain ⟨next, hnext, hnextTracks, hnextDocs, hnextRefill⟩ := ih htracks hrest (by
        intro d hd
        rw [hdocs, if_neg (hne d hd)]
        exact hacc d (List.mem_cons_of_mem doc hd))
      refine ⟨next, ?_, hnextTracks, ?_, ?_⟩
      · rw [List.foldlM_cons, hmid]
        exact hnext
      · intro k
        rw [hnextDocs]
        by_cases hk : doc.key = k
        · have hnone : (rest.find? fun d => d.key = k) = none := by
            rw [List.find?_eq_none]
            intro d hd
            simpa using fun heq => hne d hd (heq.trans hk.symm)
          rw [hnone, List.find?_cons_of_pos (by simpa using hk), Option.elim_none,
            Option.elim_some, hdocs, if_pos hk.symm, hk]
        · rw [List.find?_cons_of_neg (by simpa using hk), hdocs, if_neg (Ne.symm hk)]
      · rw [hnextRefill, hrefill, List.any_cons, Bool.or_assoc]

/-- What a round leaves: `old` are the documents it starts from. -/
structure Round (v : View q) (old : DocumentSet q) (docs : DocumentMap K V)
    (changes : ViewDocumentChanges q) : Prop where
  tracks : Tracks v.documentSet changes
  /-- Within the limit is what the changes have made of the documents. -/
  documents : ∃ changed : DocumentSet q, changes.documentSet = cut changed ∧
    ∀ k, changed.find? k = (docs.find? k).elim (old.find? k) (v.settled (old.find? k))
  needsRefill : changes.needsRefill = docs.list.any (refills old)

theorem foldlM_meetLimit_ok (v : View q) {start : ViewDocumentChanges q} (docs : DocumentMap K V)
    (h : Tracks v.documentSet start) (hrefill : start.needsRefill = false) :
    ∃ changed changes, docs.list.foldlM (v.documentChange start.documentSet) start = .ok changed ∧
      changed.meetLimit = .ok changes ∧ Round v start.documentSet docs changes := by
  obtain ⟨changed, hchanged, htracks, hdocs, hneeds⟩ :=
    v.foldlM_documentChange_ok start.documentSet docs.list h docs.nodup (fun _ _ => rfl)
  obtain ⟨changes, hchanges, hcutTracks, hcutNeeds, hcut⟩ := meetLimit_ok htracks
  refine ⟨changed, changes, hchanged, hchanges, hcutTracks, ⟨changed.documentSet, hcut, hdocs⟩, ?_⟩
  rw [hcutNeeds, hneeds, hrefill, Bool.false_or]

/-- The first round never fails. -/
theorem computeDocumentChanges_none (v : View q) (docs : DocumentMap K V)
    (hmutated : ∀ k, v.mutatedKeys.contains k =
      (v.documentSet.find? k).any Document.hasLocalMutations) :
    ∃ changes, v.computeDocumentChanges docs none = .ok changes ∧
      Round v v.documentSet docs changes := by
  obtain ⟨changed, changes, hchanged, hchanges, hround⟩ :=
    v.foldlM_meetLimit_ok docs (tracks_start hmutated) rfl
  refine ⟨changes, ?_, hround⟩
  unfold computeDocumentChanges
  simp only [hchanged]
  show (changed.meetLimit >>= _) = _
  rw [hchanges]
  show (if _ then _ else _) = _
  rw [if_neg (by simp)]
  rfl

/-- The second round fails only if its documents ask for a third. -/
theorem computeDocumentChanges_some (v : View q) (docs : DocumentMap K V)
    {previous : ViewDocumentChanges q} (h : Tracks v.documentSet previous) :
    ∃ changes, Round v previous.documentSet docs changes ∧
      v.computeDocumentChanges docs (some previous) =
        if changes.needsRefill then .error .refilledTwice else .ok changes := by
  have hstart : Tracks v.documentSet { previous with needsRefill := false } :=
    ⟨h.describes, h.mutated⟩
  obtain ⟨changed, changes, hchanged, hchanges, hround⟩ := v.foldlM_meetLimit_ok docs hstart rfl
  refine ⟨changes, hround, ?_⟩
  unfold computeDocumentChanges
  simp only [hchanged]
  show (changed.meetLimit >>= _) = _
  rw [hchanges]
  show (if _ then _ else _) = _
  by_cases hneeds : changes.needsRefill = true
  · rw [if_pos ⟨hneeds, rfl⟩, if_pos hneeds]
    rfl
  · rw [if_neg (fun hand => hneeds hand.1), if_neg hneeds]
    rfl

end View

/-! ### The snapshot -/

/-- The order of the changes in a snapshot. -/
def changeOrder (q : Query K V R) : Keyed.Order (DocumentViewChange K V) K (Nat ×ₗ R) where
  key c := c.document.key
  rank := changeRank q
  key_eq {a b} h := by
    have hrank : q.comparator.rank a.document = q.comparator.rank b.document :=
      congrArg (fun x => (ofLex x).2) h
    exact q.key_eq hrank

/-- Sorting the changes loses none, and leaves each document one. -/
theorem exists_sorted (q : Query K V R) (changes : DocumentViewChangeSet K V) :
    ∃ sorted : Keyed.Set (changeOrder q),
      sorted.list = changes.list.insertionSort (fun a b => changeRank q a ≤ changeRank q b) ∧
      ∀ k, sorted.find? k = changes.find? k := by
  have hperm := List.perm_insertionSort (fun a b => changeRank q a ≤ changeRank q b) changes.list
  have hnodup : ((changes.list.insertionSort fun a b => changeRank q a ≤ changeRank q b).map
      (changeOrder q).key).Nodup := (hperm.map _).nodup_iff.mpr changes.nodup
  have hle : (changes.list.insertionSort fun a b => changeRank q a ≤ changeRank q b).Pairwise
      fun a b => changeRank q a ≤ changeRank q b := by
    have : Std.Total fun a b : DocumentViewChange K V => changeRank q a ≤ changeRank q b :=
      ⟨fun a b => le_total _ _⟩
    have : IsTrans (DocumentViewChange K V) fun a b => changeRank q a ≤ changeRank q b :=
      ⟨fun _ _ _ => le_trans⟩
    exact List.pairwise_insertionSort _ _
  refine ⟨⟨_, hle.imp₂ ?_ (List.pairwise_map.mp hnodup), hnodup⟩, rfl, ?_⟩
  · intro a b hab hne
    exact lt_of_le_of_ne hab fun heq => hne ((changeOrder q).key_eq heq)
  · intro k
    refine Option.ext fun c => ?_
    rw [Keyed.Set.find?_eq_some_iff, Keyed.Set.find?_eq_some_iff]
    exact and_congr_left fun _ => hperm.mem_iff

namespace View

/-- Keys collected one by one. -/
theorem contains_foldl_insert (p : K → Bool) (k : K) : ∀ (keys : List K) (set : DocumentKeySet K),
    (keys.foldl (fun set key => if p key then set.insert key else set) set).contains k =
      (set.contains k || (p k && decide (k ∈ keys))) := by
  intro keys
  induction keys with
  | nil => intro set; simp
  | cons key rest ih =>
      intro set
      rw [List.foldl_cons, ih]
      by_cases hp : p key = true
      · rw [if_pos hp, contains_insert]
        by_cases hk : k = key
        · rw [if_pos hk, hk]
          simp [hp]
        · rw [if_neg hk]
          simp [hk]
      · rw [if_neg hp]
        by_cases hk : k = key
        · rw [hk]
          simp [hp]
        · simp [hk]

/-- A target change says of a document that it was modified, and the server has never listed it. -/
def Unknown (v : View q) (targetChange : Option (TargetChange K)) (key : K) : Prop :=
  ∃ change, targetChange = some change ∧ key ∈ change.modifiedDocuments ∧
    v.syncedDocuments.contains key = false ∧ key ∉ change.addedDocuments

/-- The keys of the server and whether the view is current, after a target change. -/
theorem applyTargetChange_cases (v : View q) (targetChange : Option (TargetChange K)) :
    (∃ key, v.Unknown targetChange key ∧
      v.applyTargetChange targetChange = .error (.modifiedNotFound key)) ∨
    ∃ syncedDocuments current, v.applyTargetChange targetChange =
        .ok { v with syncedDocuments, current } ∧ (targetChange = none → current = v.current) := by
  unfold applyTargetChange
  cases targetChange with
  | none => exact Or.inr ⟨v.syncedDocuments, v.current, rfl, fun _ => rfl⟩
  | some change =>
      simp only
      cases hfind : change.modifiedDocuments.list.find? fun key =>
          !(change.addedDocuments.list.foldl Keyed.Set.insert v.syncedDocuments).contains key with
      | some key =>
          have hnot := List.find?_some hfind
          have hcontains := contains_foldl_insert (fun _ => true) key change.addedDocuments.list
            v.syncedDocuments
          simp only [if_true, Bool.true_and] at hcontains
          rw [hcontains, Bool.not_eq_true', Bool.or_eq_false_iff, decide_eq_false_iff_not] at hnot
          exact Or.inl ⟨key, ⟨change, rfl, List.mem_of_find?_eq_some hfind, hnot.1, hnot.2⟩, rfl⟩
      | none => exact Or.inr ⟨_, _, rfl, by simp⟩

theorem contains_eq_find? (docs : DocumentSet q) (k : K) :
    decide (k ∈ docs.list.map Document.key) = (docs.find? k).isSome := by
  rw [Bool.eq_iff_iff, decide_eq_true_eq]
  exact (List.mem_map (f := Document.key)).trans (Keyed.Set.contains_iff (s := docs)).symm

/-- What is known of the documents in limbo: all of it, once the view is current. -/
theorem updateLimboDocuments_spec (v : View q) : ∃ limboDocuments,
    v.updateLimboDocuments.1 = { v with limboDocuments } ∧
    (v.current = true → ∀ k, limboDocuments.contains k = v.shouldBeInLimbo k) ∧
    (v.current = false → limboDocuments = v.limboDocuments ∧ v.updateLimboDocuments.2 = []) := by
  unfold updateLimboDocuments
  by_cases hcurrent : v.current = true
  · rw [if_pos hcurrent]
    refine ⟨_, rfl, fun _ k => ?_, fun hnot => absurd hcurrent (by rw [hnot]; simp)⟩
    rw [contains_foldl_insert, contains_eq_find?]
    show (false || _) = _
    rw [Bool.false_or]
    unfold shouldBeInLimbo
    by_cases hsynced : v.syncedDocuments.contains k = true
    · rw [if_pos hsynced, Bool.false_and]
    · rw [if_neg hsynced]
      cases v.documentSet.find? k with
      | none => rfl
      | some doc => rw [Option.isSome_some, Bool.and_true]
  · rw [if_neg hcurrent]
    exact ⟨v.limboDocuments, rfl, fun h => absurd h hcurrent, fun _ => ⟨rfl, rfl⟩⟩

/-- A snapshot of certain changes, from one set of documents to another. -/
structure Snapshot (old new : DocumentSet q) (changes : Keyed.Set (changeOrder q))
    (snapshot : ViewSnapshot q) : Prop where
  documents : snapshot.documents = new
  oldDocuments : snapshot.oldDocuments = old
  documentChanges : snapshot.documentChanges = changes.list
  some : ¬ (snapshot.documentChanges.isEmpty && !snapshot.syncStateChanged) = true

/-- A view after changes it was told to apply, and what it tells of them. -/
structure Applied (v : View q) (docChanges : ViewDocumentChanges q)
    (targetChange : Option (TargetChange K)) (next : View q) (change : ViewChange q) : Prop where
  current : targetChange = none → next.current = v.current
  documentSet : next.documentSet = docChanges.documentSet
  mutatedKeys : next.mutatedKeys = docChanges.mutatedKeys
  limbo : next.current = true → ∀ k, next.limboDocuments.contains k = next.shouldBeInLimbo k
  notCurrent : next.current = false →
    next.limboDocuments = v.limboDocuments ∧ change.limboChanges = []
  limboChanges : change.limboChanges =
    ((v.limboDocuments.list.filter fun key => !next.limboDocuments.contains key).map .removed) ++
      (next.limboDocuments.list.filter fun key => !v.limboDocuments.contains key).map .added
  syncState : next.syncState =
    if next.limboDocuments.isEmpty && next.current then .synced else .local
  snapshot : ∃ changes : Keyed.Set (changeOrder q),
    (∀ k, changes.find? k = docChanges.changeSet.find? k) ∧
    (∀ snapshot ∈ change.snapshot,
      Snapshot v.documentSet docChanges.documentSet changes snapshot) ∧
    (change.snapshot = none → changes.list = [] ∧ next.syncState = v.syncState)

theorem updateLimboDocuments_changes (v : View q) : v.updateLimboDocuments.2 =
    ((v.limboDocuments.list.filter fun key =>
      !v.updateLimboDocuments.1.limboDocuments.contains key).map .removed) ++
      (v.updateLimboDocuments.1.limboDocuments.list.filter fun key =>
        !v.limboDocuments.contains key).map .added := by
  unfold updateLimboDocuments
  by_cases hcurrent : v.current = true
  · rw [if_pos hcurrent]
  · have hself : (v.limboDocuments.list.filter fun key => !v.limboDocuments.contains key) = [] := by
      rw [List.filter_eq_nil_iff]
      intro key hkey
      have hcontains : v.limboDocuments.contains key = true :=
        Keyed.Set.contains_iff.mpr ⟨key, hkey, rfl⟩
      simp [hcontains]
    rw [if_neg hcurrent]
    show [] = _
    rw [hself]
    rfl

/-- The snapshot is left out only if it would tell of nothing. -/
theorem applied_report (v : View q) (docChanges : ViewDocumentChanges q)
    (targetChange : Option (TargetChange K)) (hasCachedResults : Bool)
    (syncedDocuments : DocumentKeySet K) {current : Bool}
    (hcurrent : targetChange = none → current = v.current) :
    Applied v docChanges targetChange
      (v.report { v with
        documentSet := docChanges.documentSet, syncedDocuments
        mutatedKeys := docChanges.mutatedKeys, current } docChanges hasCachedResults).1
      (v.report { v with
        documentSet := docChanges.documentSet, syncedDocuments
        mutatedKeys := docChanges.mutatedKeys, current } docChanges hasCachedResults).2 := by
  generalize htargeted : ({ v with
    documentSet := docChanges.documentSet, syncedDocuments
    mutatedKeys := docChanges.mutatedKeys, current } : View q) = targeted
  obtain ⟨changes, hchanges, hfind⟩ := exists_sorted q docChanges.changeSet
  obtain ⟨limboDocuments, hupdated, hlimbo, hstay⟩ := targeted.updateLimboDocuments_spec
  have hlimboChanges := targeted.updateLimboDocuments_changes
  rw [hupdated] at hlimboChanges
  unfold report
  simp only [hupdated, ← hchanges]
  subst htargeted
  refine ⟨hcurrent, rfl, rfl, hlimbo, hstay, hlimboChanges, rfl, changes, hfind, ?_, ?_⟩
  · intro snapshot hsnapshot
    obtain ⟨hsome, hsnapshot⟩ := Option.ite_none_left_eq_some.mp hsnapshot
    obtain rfl := Option.some_inj.mp hsnapshot
    exact ⟨rfl, rfl, rfl, hsome⟩
  · intro hnone
    have hnothing := of_not_not fun hnot => Option.some_ne_none _ (ite_eq_left_iff.mp hnone hnot)
    rw [Bool.and_eq_true, List.isEmpty_iff, Bool.not_eq_true', decide_eq_false_iff_not,
      not_not] at hnothing
    exact hnothing

theorem applyChanges_cases (v : View q) (docChanges : ViewDocumentChanges q)
    (h : docChanges.needsRefill = false) (targetChange : Option (TargetChange K)) :
    (∃ key, v.Unknown targetChange key ∧
      v.applyChanges docChanges targetChange = .error (.modifiedNotFound key)) ∨
    ∃ next change, v.applyChanges docChanges targetChange = .ok (next, change) ∧
      Applied v docChanges targetChange next change := by
  unfold applyChanges
  rw [h, if_neg (by simp)]
  obtain ⟨key, hunknown, hfault⟩ | ⟨syncedDocuments, current, hok, hcurrent⟩ :=
    applyTargetChange_cases
      { v with documentSet := docChanges.documentSet, mutatedKeys := docChanges.mutatedKeys }
      targetChange
  · left
    refine ⟨key, hunknown, ?_⟩
    show ((applyTargetChange _ _) >>= _) = _
    rw [hfault]
    rfl
  · right
    refine ⟨_, _, ?_, v.applied_report docChanges targetChange
      (targetChange.any fun change => !change.resumeToken.isEmpty) syncedDocuments hcurrent⟩
    show ((applyTargetChange _ _) >>= _) = _
    rw [hok]
    rfl

end View

end Firebase
