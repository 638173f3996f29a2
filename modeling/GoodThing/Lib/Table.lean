/-
A table over a list that changes under it.

The callbacks of a query and of a listener change the list at once; the table learns
of it when the `reloadData` they put on the main queue is run.  Until then it may ask
for any row below the count it was told last, and each row stands for an element of the
list as it is now.

A listener's callback only makes the list longer.  The answer to the query replaces it,
and can be shorter than what the table has counted.
-/
import GoodThing.Lib.Feed

namespace Table

open Firestore Feed Machine

/-- How a table reads its list. -/
structure Config (α : Type) where
  decode : Document → Option α
  before : α → α → Bool
  /-- `numberOfRowsInSection`, for a list of this length. -/
  numberOfRows : Nat → Nat
  /-- The element a row stands for, if it stands for one. -/
  index : Nat → Option Nat
  /-- As many rows can be asked for as the list has elements for. -/
  index_lt_iff : ∀ rows n,
    (∀ row < rows, ∀ i, index row = some i → i < n) ↔ rows ≤ numberOfRows n

structure State (α : Type) where
  items : List α
  /-- The count the table obtained last. -/
  rows : Nat
  /-- Calls of `reloadData` on the main queue. -/
  queued : Nat

inductive Action where
  /-- The callback of the query, with the documents or with an error. -/
  | fetched (docs : Option (List (String × Document)))
  /-- The callback of the listener. -/
  | updated (changes : Option (List DocumentChange))
  /-- A call of `reloadData` is run. -/
  | reload
  /-- The table counts by itself, as it does when it is laid out first. -/
  | layout

variable {α : Type}

/-- The list is empty, and nothing has been counted. -/
def start : State α := { items := [], rows := 0, queued := 0 }

variable (cfg : Config α)

def step (s : State α) : Action → State α
  | .fetched (some docs) =>
      { s with items := replaced cfg.decode docs, queued := s.queued + 1 }
  | .updated (some changes) =>
      if (newItems cfg.decode changes).isEmpty then s
      else
        { s with items := merged cfg.decode cfg.before changes s.items, queued := s.queued + 1 }
  | .fetched none => s
  | .updated none => s
  | .reload =>
      if s.queued = 0 then s
      else { s with rows := cfg.numberOfRows s.items.length, queued := s.queued - 1 }
  | .layout => { s with rows := cfg.numberOfRows s.items.length }

/-- Every row that can be asked for stands for an element of the list. -/
def InRange (s : State α) : Prop :=
  ∀ row < s.rows, ∀ i, cfg.index row = some i → i < s.items.length

/-- So many documents of an answer decode that the table has not counted more rows. -/
def LongEnough (s : State α) (a : Action) : Prop :=
  ∀ docs, a = .fetched (some docs) → s.rows ≤ cfg.numberOfRows (replaced cfg.decode docs).length

variable {cfg}

/-- A table that counts is in range. -/
theorem inRange_counted {s : State α} (h : s.rows = cfg.numberOfRows s.items.length) :
    InRange cfg s := by
  unfold InRange
  rw [cfg.index_lt_iff, h]

theorem length_merged_le (decode : Document → Option α) (before : α → α → Bool)
    (changes : List DocumentChange) (items : List α) :
    items.length ≤ (merged decode before changes items).length := by
  unfold merged
  by_cases h : (newItems decode changes).isEmpty = true
  · rw [if_pos h]
  · rw [if_neg h, List.length_insertionSort, List.length_append]
    omega

theorem inRange_step_iff (s : State α) (a : Action) (h : InRange cfg s) :
    InRange cfg (step cfg s a) ↔ LongEnough cfg s a := by
  cases a with
  | fetched docs =>
      cases docs with
      | none => exact ⟨fun _ _ hdocs => (nomatch hdocs), fun _ => h⟩
      | some docs =>
          refine ⟨?_, ?_⟩
          · intro hnext docs' hdocs
            obtain rfl : docs = docs' := Option.some.inj (Action.fetched.inj hdocs)
            exact (cfg.index_lt_iff _ _).mp hnext
          · intro hlong
            exact (cfg.index_lt_iff _ _).mpr (hlong docs rfl)
  | updated changes =>
      refine ⟨fun _ _ hdocs => (nomatch hdocs), ?_⟩
      intro _
      cases changes with
      | none => exact h
      | some changes =>
          simp only [step]
          by_cases hnew : (newItems cfg.decode changes).isEmpty = true
          · rw [if_pos hnew]
            exact h
          · rw [if_neg hnew]
            intro row hrow i hi
            have hlonger := length_merged_le cfg.decode cfg.before changes s.items
            have hold := h row hrow i hi
            simp only
            omega
  | reload =>
      refine ⟨fun _ _ hdocs => (nomatch hdocs), ?_⟩
      intro _
      simp only [step]
      by_cases hqueued : s.queued = 0
      · rw [if_pos hqueued]
        exact h
      · rw [if_neg hqueued]
        exact inRange_counted rfl
  | layout => exact ⟨fun _ _ hdocs => (nomatch hdocs), fun _ => inRange_counted rfl⟩

/--
Every row the table asks for is in range, in every state of a run, exactly when no
answer is shorter than what the table has counted.
-/
theorem inRange_iff (as : List Action) :
    Always (step cfg) (InRange cfg) start as ↔ Guarded (step cfg) (LongEnough cfg) start as := by
  refine always_iff_guarded_of_step inRange_step_iff as ?_
  intro row hrow
  exact absurd hrow (Nat.not_lt_zero row)

end Table
