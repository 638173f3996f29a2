/-
A list kept by a listener alone.

A snapshot tells which documents have been added, modified and removed since the
one before.  A client that follows all three has the collection; the lists here
follow additions and ignore the rest, so an item is as old as the last time its
document was added.
-/
import GoodThing.Lib.Feed

namespace Listener

open Firestore Machine Feed

variable {α : Type}

/-- The collection after one change. -/
def applyChange (c : Collection) (ch : DocumentChange) : Collection :=
  match ch.type with
  | .added | .modified => c.insert ch.id ch.data
  | .removed => c.erase ch.id

/--
A snapshot: at most one change for each document, of documents that carry their id
in the field `key` reads.
-/
structure Changes (decode : Document → Option α) (key : α → String) where
  list : List DocumentChange
  once : (list.map (·.id)).Nodup
  keyed : ∀ ch ∈ list, ∀ m, decode ch.data = some m → key m = ch.id

/-- The collection as the snapshots so far tell it, and the list. -/
structure State (α : Type) where
  view : Collection
  items : List α

/-- Nothing has been reported yet. -/
def start : State α := { view := ∅, items := [] }

section

variable {decode : Document → Option α} {key : α → String} (before : α → α → Bool)

/-- A snapshot is delivered. -/
def step (s : State α) (snapshot : Changes decode key) : State α where
  view := snapshot.list.foldl applyChange s.view
  items := merged decode before snapshot.list s.items

end

/-! ### The collection after a snapshot -/

theorem lookup_applyChange (c : Collection) (ch : DocumentChange) (id : String) :
    (applyChange c ch).lookup id =
      if id = ch.id then (if ch.type = .removed then none else some ch.data)
      else c.lookup id := by
  unfold applyChange
  by_cases hid : id = ch.id
  · rw [if_pos hid, hid]
    cases ch.type with
    | added => exact AList.lookup_insert c
    | modified => exact AList.lookup_insert c
    | removed => exact AList.lookup_erase ch.id c
  · rw [if_neg hid]
    cases ch.type with
    | added => exact AList.lookup_insert_ne hid
    | modified => exact AList.lookup_insert_ne hid
    | removed => exact AList.lookup_erase_ne hid

/-- A document without a change stays as it is. -/
theorem lookup_foldl_of_notMem {id : String} :
    ∀ (changes : List DocumentChange) (c : Collection), id ∉ changes.map (·.id) →
      (changes.foldl applyChange c).lookup id = c.lookup id := by
  intro changes
  induction changes with
  | nil => intro c _; rfl
  | cons ch rest ih =>
      intro c h
      obtain ⟨hne, hrest⟩ := not_or.mp fun hor => h (List.mem_cons.mpr hor)
      rw [List.foldl_cons, ih _ hrest, lookup_applyChange, if_neg hne]

/-- A document with a change is as the change says. -/
theorem lookup_foldl_of_mem {ch : DocumentChange} :
    ∀ (changes : List DocumentChange) (c : Collection), (changes.map (·.id)).Nodup →
      ch ∈ changes → (changes.foldl applyChange c).lookup ch.id =
        if ch.type = .removed then none else some ch.data := by
  intro changes
  induction changes with
  | nil => intro c _ h; exact absurd h List.not_mem_nil
  | cons first rest ih =>
      intro c hnodup hmem
      obtain ⟨hfirst, hrest⟩ := List.nodup_cons.mp hnodup
      rw [List.foldl_cons]
      rcases List.mem_cons.mp hmem with rfl | hch
      · -- It is the only change of its document.
        rw [lookup_foldl_of_notMem rest _ hfirst, lookup_applyChange, if_pos rfl]
      · exact ih _ hrest hch

/-! ### Which snapshots leave the list right -/

section

variable {decode : Document → Option α} {key : α → String}

/-- Every item is what its document holds now; in particular the document exists. -/
def Current (decode : Document → Option α) (key : α → String) (s : State α) : Prop :=
  ∀ m ∈ s.items, (s.view.lookup (key m)).bind decode = some m

/-- No document on the list is removed, or modified so that its item changes. -/
def LeavesItems (s : State α) (snapshot : Changes decode key) : Prop :=
  ∀ ch ∈ snapshot.list, ∀ m ∈ s.items, key m = ch.id →
    ch.type ≠ .removed ∧ decode ch.data = some m

/-- Whether a snapshot leaves every item as its document. -/
theorem current_step_iff (before : α → α → Bool) (s : State α) (snapshot : Changes decode key)
    (h : Current decode key s) :
    Current decode key (step before s snapshot) ↔ LeavesItems s snapshot := by
  have hview : ∀ ch ∈ snapshot.list, (step before s snapshot).view.lookup ch.id =
      if ch.type = .removed then none else some ch.data := by
    intro ch hch
    exact lookup_foldl_of_mem snapshot.list s.view snapshot.once hch
  refine ⟨?_, ?_⟩
  · intro hnext ch hch m hm hkey
    have hcurrent := hnext m (mem_merged.mpr (Or.inl hm))
    rw [hkey, hview ch hch] at hcurrent
    by_cases hremoved : ch.type = .removed
    · rw [if_pos hremoved] at hcurrent
      cases hcurrent
    · rw [if_neg hremoved] at hcurrent
      exact ⟨hremoved, hcurrent⟩
  · intro hleaves m hm
    rcases mem_merged.mp hm with hold | hnew
    · by_cases hchange : key m ∈ snapshot.list.map (·.id)
      · obtain ⟨ch, hch, hid⟩ := List.mem_map.mp hchange
        obtain ⟨hremoved, hdec⟩ := hleaves ch hch m hold hid.symm
        rw [← hid, hview ch hch, if_neg hremoved]
        exact hdec
      · show ((snapshot.list.foldl applyChange s.view).lookup (key m)).bind decode = some m
        rw [lookup_foldl_of_notMem snapshot.list s.view hchange]
        exact h m hold
    · obtain ⟨ch, hch, hadded, hdec⟩ := mem_newItems.mp hnew
      rw [snapshot.keyed ch hch m hdec, hview ch hch, if_neg (by rw [hadded]; simp)]
      exact hdec

/--
Every item is what its document holds, all along a run, exactly when no snapshot
removes a document that is on the list or changes its item.
-/
theorem current_iff (before : α → α → Bool) (snapshots : List (Changes decode key)) :
    Always (step before) (Current decode key) start snapshots ↔
      Guarded (step before) LeavesItems start snapshots := by
  refine always_iff_guarded_of_step (current_step_iff before) snapshots ?_
  intro m hm
  exact absurd hm List.not_mem_nil

end

end Listener
