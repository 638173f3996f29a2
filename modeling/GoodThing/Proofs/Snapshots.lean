/-
The snapshots the screens count on.

The screens' listeners are modelled by what a snapshot tells: at most one change for each
document, and with all of them applied, one snapshot after the other, the collection.  Here
that is shown of the snapshots a query's listener raises, for the documents of its view.
-/
import GoodThing.Lib.Listener
import GoodThing.Proofs.Session
import Mathlib.Data.String.Basic

namespace Firebase

open Machine

variable {V R : Type} (fields : V → Firestore.Document)

def DocumentChangeType.toFeed : DocumentChangeType → Feed.ChangeType
  | .added => .added
  | .modified => .modified
  | .removed => .removed

/-- A document change as a screen reads it; `fields` are the fields of a document. -/
def DocumentChange.toFeed (change : DocumentChange String V) : Feed.DocumentChange where
  type := change.type.toFeed
  id := change.document.key
  data := fields change.document.value

theorem toFeed_eq_removed (type : DocumentChangeType) :
    type.toFeed = .removed ↔ type = .removed := by
  cases type with
  | added => simp [DocumentChangeType.toFeed]
  | modified => simp [DocumentChangeType.toFeed]
  | removed => simp [DocumentChangeType.toFeed]

theorem lookup_applyChange_toFeed {c : Firestore.Collection} {known : String → Option V}
    (h : ∀ id, c.lookup id = (known id).map fields) (change : DocumentChange String V)
    (id : String) :
    (Listener.applyChange c (change.toFeed fields)).lookup id =
      (change.record known id).map fields := by
  rw [Listener.lookup_applyChange]
  unfold DocumentChange.record
  by_cases hid : id = change.document.key
  · rw [if_pos hid]
    show (if id = change.document.key then _ else _) = _
    rw [if_pos hid]
    by_cases hremoved : change.type = .removed
    · rw [if_pos hremoved]
      exact if_pos ((toFeed_eq_removed change.type).mpr hremoved)
    · rw [if_neg hremoved]
      exact if_neg fun h => hremoved ((toFeed_eq_removed change.type).mp h)
  · rw [if_neg hid, ← h]
    exact if_neg hid

/-- One snapshot, and then all of them. -/
theorem lookup_foldl_toFeed : ∀ (cs : List (DocumentChange String V)) {c : Firestore.Collection}
    {known : String → Option V}, (∀ id, c.lookup id = (known id).map fields) → ∀ id,
      ((cs.map (DocumentChange.toFeed fields)).foldl Listener.applyChange c).lookup id =
        (cs.foldl DocumentChange.record known id).map fields := by
  intro cs
  induction cs with
  | nil => intro c known h id; exact h id
  | cons change rest ih =>
      intro c known h id
      rw [List.map_cons, List.foldl_cons, List.foldl_cons]
      exact ih (lookup_applyChange_toFeed fields h change) id

theorem lookup_run_toFeed {α : Type} {decode : Firestore.Document → Option α} {key : α → String}
    (before : α → α → Bool) : ∀ (raised : List (List (DocumentChange String V)))
    (snapshots : List (Listener.Changes decode key)) {s : Listener.State α}
    {known : String → Option V},
      snapshots.map Listener.Changes.list =
        (raised.map fun cs => cs.map (DocumentChange.toFeed fields)) →
      (∀ id, s.view.lookup id = (known id).map fields) → ∀ id,
      (Machine.run (Listener.step before) s snapshots).view.lookup id =
        (raised.flatten.foldl DocumentChange.record known id).map fields := by
  intro raised
  induction raised with
  | nil =>
      intro snapshots s known hsnapshots h id
      rw [List.map_eq_nil_iff.mp hsnapshots]
      exact h id
  | cons cs rest ih =>
      intro snapshots s known hsnapshots h id
      cases snapshots with
      | nil => cases hsnapshots
      | cons snapshot later =>
          obtain ⟨hfirst, hrest⟩ := List.cons.inj hsnapshots
          rw [run_cons, List.flatten_cons, List.foldl_append]
          refine ih later hrest (fun id => ?_) id
          show (snapshot.list.foldl Listener.applyChange s.view).lookup id = _
          rw [hfirst]
          exact lookup_foldl_toFeed fields cs h id

variable [LinearOrder R] [DecidableEq V]

/--
Whatever happens to a listener, each of its snapshots has at most one change for a
document, and a screen that gets them one after the other is told the view's documents:
those and no others, as they are now.
-/
theorem Session.snapshots_told (q : Query String V R) (start : Session.Start String V)
    (events : List (Session.Event String V)) :
    (∃ key, Session.Misled q start events key) ∨
    ∃ s, Session.run q start events = .ok s ∧
      (∀ cs ∈ s.raised, ((cs.map (DocumentChange.toFeed fields)).map fun c => c.id).Nodup) ∧
      ∀ {α : Type} (decode : Firestore.Document → Option α) (key : α → String)
        (before : α → α → Bool) (snapshots : List (Listener.Changes decode key)),
        snapshots.map Listener.Changes.list =
          (s.raised.map fun cs => cs.map (DocumentChange.toFeed fields)) → ∀ id,
        (Machine.run (Listener.step before) Listener.start snapshots).view.lookup id =
          if s.listener.raisedInitialEvent then
            (s.view.documentSet.find? id).map fun d => fields d.value
          else none := by
  rcases coherent_or_misled q start events with hmisled | ⟨s, hs, hcoherent⟩
  · exact Or.inl hmisled
  refine Or.inr ⟨s, hs, ?_, ?_⟩
  · intro cs hcs
    rw [List.map_map]
    exact hcoherent.told.handed.once cs hcs
  · intro α decode key before snapshots hsnapshots id
    have hstart : ∀ id, (Listener.start : Listener.State α).view.lookup id =
        ((fun _ => none : String → Option V) id).map fields := fun _ => rfl
    have hview := lookup_run_toFeed fields before s.raised snapshots hsnapshots hstart id
    have hknown := hcoherent.told.handed.known id
    rw [hview]
    show (s.known id).map fields = _
    rw [hknown]
    by_cases hraised : s.listener.raisedInitialEvent = true
    · rw [if_pos hraised, if_pos hraised, Option.map_map]
      rfl
    · rw [if_neg hraised, if_neg hraised]
      rfl

end Firebase
