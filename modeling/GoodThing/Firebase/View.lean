/-
The documents of one query, kept current from changes.

A view holds the documents that match its query, in the query's order and cut off at its
limit.  It is told which documents of the local store have changed, works out what became
of its own, and hands the difference on as a snapshot.  A change that may have let in a
document from beyond the limit asks for a second round over all local documents that
match, on top of the first, so the two rounds' changes of a document are merged.

A failed assertion ends the program; it is a `Fault` here.
-/
import GoodThing.Lib.Keyed
import Mathlib.Data.Prod.Lex

namespace Firebase

/-! ### Documents -/

inductive DocumentType where
  | invalid
  | foundDocument
  | noDocument
  | unknownDocument
  deriving DecidableEq

inductive DocumentState where
  | hasLocalMutations
  | hasCommittedMutations
  | synced
  deriving DecidableEq

/-- A document as the local store has it, the writes not yet acknowledged included. -/
structure Document (K V : Type) where
  key : K
  type : DocumentType
  value : V
  state : DocumentState

variable {K V R : Type}

namespace Document

def isFoundDocument (d : Document K V) : Bool := d.type = .foundDocument

def hasLocalMutations (d : Document K V) : Bool := d.state = .hasLocalMutations

def hasCommittedMutations (d : Document K V) : Bool := d.state = .hasCommittedMutations

end Document

inductive LimitType where
  | none
  | first
  | last
  deriving DecidableEq

/-- What a view uses of its query: the order always ends with the key. -/
structure Query (K V R : Type) [LinearOrder R] where
  /-- Path, order-by fields, filters and bounds. -/
  admits : K → V → Bool
  rank : K → V → R
  key_eq {k k' : K} {v v' : V} : rank k v = rank k' v' → k = k'
  limitType : LimitType
  limit : Nat

inductive ChangeType where
  | removed
  | added
  | modified
  | metadata
  deriving DecidableEq

structure DocumentViewChange (K V : Type) where
  document : Document K V
  type : ChangeType

/-- The assertions that can fail. -/
inductive Fault (K : Type) where
  /-- Unsupported combination of changes: %s after %s -/
  | unsupportedCombination (newType oldType : ChangeType)
  /-- View was refilled using docs that themselves needed refilling. -/
  | refilledTwice
  /-- Cannot apply changes that need a refill -/
  | needsRefill
  /-- Modified document %s not found in view. -/
  | modifiedNotFound (key : K)
  /-- An optional without a value is read. -/
  | emptyOptional
  /-- ApplyChanges to documents for new view should always return a snapshot -/
  | noFirstSnapshot
  /-- OnlineState should not affect limbo documents. -/
  | limboAffected
  /-- We got a new snapshot with no changes? -/
  | noChanges
  /-- Invalid event type for first snapshot -/
  | invalidFirstType
  /-- Got added events in wrong order -/
  | wrongOrder
  /-- Index for document not found -/
  | indexNotFound
  deriving DecidableEq

section

variable [LinearOrder K] [LinearOrder R]

/-! ### The collections in use -/

def byKey : Keyed.Order (Document K V) K K := ⟨Document.key, Document.key, id⟩

/-- Documents in the order of their keys. -/
abbrev DocumentMap (K V : Type) [LinearOrder K] := Keyed.Set (byKey (K := K) (V := V))

def ofKeys : Keyed.Order K K K := ⟨id, id, id⟩

abbrev DocumentKeySet (K : Type) [LinearOrder K] := Keyed.Set (ofKeys (K := K))

def changeByKey : Keyed.Order (DocumentViewChange K V) K K :=
  ⟨fun c => c.document.key, fun c => c.document.key, id⟩

abbrev DocumentViewChangeSet (K V : Type) [LinearOrder K] :=
  Keyed.Set (changeByKey (K := K) (V := V))

namespace Query

def comparator (q : Query K V R) : Keyed.Order (Document K V) K R :=
  ⟨Document.key, fun d => q.rank d.key d.value, q.key_eq⟩

def matchesDocument (q : Query K V R) (d : Document K V) : Bool :=
  d.isFoundDocument && q.admits d.key d.value

end Query

abbrev DocumentSet (q : Query K V R) := Keyed.Set q.comparator

/-! ### Changes of one document, merged -/

/-- A document's change so far and a new one, as one change; none if they cancel out. -/
def mergeChange (old change : DocumentViewChange K V) :
    Except (Fault K) (Option (DocumentViewChange K V)) :=
  if change.type ≠ .added ∧ old.type = .metadata then .ok (some change)
  else if change.type = .metadata ∧ old.type ≠ .removed then
    .ok (some ⟨change.document, old.type⟩)
  else if change.type = .modified ∧ old.type = .modified then
    .ok (some ⟨change.document, .modified⟩)
  else if change.type = .modified ∧ old.type = .added then
    .ok (some ⟨change.document, .added⟩)
  else if change.type = .removed ∧ old.type = .added then .ok none
  else if change.type = .removed ∧ old.type = .modified then
    .ok (some ⟨old.document, .removed⟩)
  else if change.type = .added ∧ old.type = .removed then
    .ok (some ⟨change.document, .modified⟩)
  else .error (.unsupportedCombination change.type old.type)

def addChange (changes : DocumentViewChangeSet K V) (change : DocumentViewChange K V) :
    Except (Fault K) (DocumentViewChangeSet K V) :=
  match changes.find? change.document.key with
  | none => .ok (changes.insert change)
  | some old =>
      match mergeChange old change with
      | .ok (some merged) => .ok (changes.insert merged)
      | .ok none => .ok (changes.erase change.document.key)
      | .error fault => .error fault

/-! ### What became of the documents -/

inductive SyncState where
  | none
  | «local»
  | synced
  deriving DecidableEq

structure View (q : Query K V R) where
  documentSet : DocumentSet q
  /-- Keys the server has said belong to the query. -/
  syncedDocuments : DocumentKeySet K
  limboDocuments : DocumentKeySet K
  /-- Keys of documents with local changes. -/
  mutatedKeys : DocumentKeySet K
  syncState : SyncState
  current : Bool

/-- A view before its first documents. -/
def View.new (q : Query K V R) (remoteDocuments : DocumentKeySet K) : View q where
  documentSet := .empty
  syncedDocuments := remoteDocuments
  limboDocuments := .empty
  mutatedKeys := .empty
  syncState := .none
  current := false

structure ViewDocumentChanges (q : Query K V R) where
  documentSet : DocumentSet q
  changeSet : DocumentViewChangeSet K V
  mutatedKeys : DocumentKeySet K
  needsRefill : Bool

/--
The change a write's acknowledgment makes is held back: the server sends the document
again.
-/
def shouldWaitForSyncedDocument (newDoc oldDoc : Document K V) : Bool :=
  oldDoc.hasLocalMutations && newDoc.hasCommittedMutations && !newDoc.hasLocalMutations

namespace ViewDocumentChanges

variable {q : Query K V R}

/-- A change is recorded, and the document put where it belongs or taken out. -/
def apply (acc : ViewDocumentChanges q) (change : DocumentViewChange K V)
    (newDoc : Option (Document K V)) (refill : Bool) :
    Except (Fault K) (ViewDocumentChanges q) := do
  let changeSet ← addChange acc.changeSet change
  match newDoc with
  | some doc => return {
      documentSet := acc.documentSet.insert doc
      changeSet
      mutatedKeys := if doc.hasLocalMutations then acc.mutatedKeys.insert doc.key
        else acc.mutatedKeys.erase doc.key
      needsRefill := acc.needsRefill || refill }
  | none => return {
      documentSet := acc.documentSet.erase change.document.key
      changeSet
      mutatedKeys := acc.mutatedKeys.erase change.document.key
      needsRefill := acc.needsRefill || refill }

/-- Documents are dropped from the end beyond the limit. -/
def dropOut : Nat → ViewDocumentChanges q → Except (Fault K) (ViewDocumentChanges q)
  | 0, acc => .ok acc
  | i + 1, acc =>
      match if q.limitType = .first then acc.documentSet.last? else acc.documentSet.first? with
      | none => .error .emptyOptional
      | some oldDoc => do dropOut i (← acc.apply ⟨oldDoc, .removed⟩ none false)

/-- Documents are dropped to meet the limit. -/
def meetLimit (acc : ViewDocumentChanges q) : Except (Fault K) (ViewDocumentChanges q) :=
  if q.limitType ≠ .none ∧ q.limit < acc.documentSet.size then
    acc.dropOut (acc.documentSet.size - q.limit)
  else .ok acc

end ViewDocumentChanges

namespace View

variable {q : Query K V R}

/-- The last document of a full limit, and the first of a full limit to the last. -/
def lastDocInLimit (q : Query K V R) (docs : DocumentSet q) : Option (Document K V) :=
  if q.limitType = .first ∧ docs.size = q.limit then docs.last? else none

def firstDocInLimit (q : Query K V R) (docs : DocumentSet q) : Option (Document K V) :=
  if q.limitType = .last ∧ docs.size = q.limit then docs.first? else none

/-- A document has moved to beyond a full limit. -/
def outsideLimit (docs : DocumentSet q) (newDoc : Document K V) : Bool :=
  (lastDocInLimit q docs).any (fun d => q.comparator.rank d < q.comparator.rank newDoc) ||
    (firstDocInLimit q docs).any (fun d => q.comparator.rank newDoc < q.comparator.rank d)

/-- The limit was full. -/
def fullLimit (docs : DocumentSet q) : Bool :=
  (lastDocInLimit q docs).isSome || (firstDocInLimit q docs).isSome

/-- A document with a write that the server has not told of yet. -/
def hasPendingMutations (v : View q) (doc : Document K V) : Bool :=
  doc.hasLocalMutations || (v.mutatedKeys.contains doc.key && doc.hasCommittedMutations)

variable [DecidableEq V]

/-- One document of the changes; `old` are the documents before any of them. -/
def documentChange (v : View q) (old : DocumentSet q) (acc : ViewDocumentChanges q)
    (doc : Document K V) : Except (Fault K) (ViewDocumentChanges q) :=
  match old.find? doc.key, q.matchesDocument doc with
  | some oldDoc, true =>
      if oldDoc.value ≠ doc.value then
        if shouldWaitForSyncedDocument doc oldDoc then .ok acc
        else acc.apply ⟨doc, .modified⟩ (some doc) (outsideLimit old doc)
      else if v.mutatedKeys.contains doc.key ≠ v.hasPendingMutations doc then
        acc.apply ⟨doc, .metadata⟩ (some doc) false
      else .ok acc
  | none, true => acc.apply ⟨doc, .added⟩ (some doc) false
  | some oldDoc, false => acc.apply ⟨oldDoc, .removed⟩ none (fullLimit old)
  | none, false => .ok acc

def computeDocumentChanges (v : View q) (docChanges : DocumentMap K V)
    (previousChanges : Option (ViewDocumentChanges q)) :
    Except (Fault K) (ViewDocumentChanges q) := do
  let start : ViewDocumentChanges q := match previousChanges with
    | some previous => { previous with needsRefill := false }
    | none => {
        documentSet := v.documentSet, changeSet := .empty
        mutatedKeys := v.mutatedKeys, needsRefill := false }
  let changed ← docChanges.list.foldlM (v.documentChange start.documentSet) start
  let changes ← changed.meetLimit
  if changes.needsRefill ∧ previousChanges.isSome then throw .refilledTwice
  return changes

end View

/-! ### The snapshot -/

structure TargetChange (K : Type) [LinearOrder K] where
  resumeToken : List UInt8
  current : Bool
  addedDocuments : DocumentKeySet K
  modifiedDocuments : DocumentKeySet K
  removedDocuments : DocumentKeySet K

/-- The change that hands the state of a query with the same target to a new one. -/
def TargetChange.createSynthesizedTargetChange (current : Bool) (resumeToken : List UInt8) :
    TargetChange K :=
  { resumeToken, current, addedDocuments := .empty, modifiedDocuments := .empty
    removedDocuments := .empty }

structure ViewSnapshot (q : Query K V R) where
  documents : DocumentSet q
  oldDocuments : DocumentSet q
  documentChanges : List (DocumentViewChange K V)
  mutatedKeys : DocumentKeySet K
  fromCache : Bool
  syncStateChanged : Bool
  excludesMetadataChanges : Bool
  hasCachedResults : Bool

inductive LimboDocumentChange (K : Type) where
  | added (key : K)
  | removed (key : K)

structure ViewChange (q : Query K V R) where
  snapshot : Option (ViewSnapshot q)
  limboChanges : List (LimboDocumentChange K)

def getDocumentViewChangeTypePosition : ChangeType → Nat
  | .removed => 0
  | .added => 1
  | .modified => 2
  -- A metadata change is a modified one to the caller.
  | .metadata => 2

/-- By type and then in the order of the query. -/
def changeRank (q : Query K V R) (c : DocumentViewChange K V) : Nat ×ₗ R :=
  toLex (getDocumentViewChangeTypePosition c.type, q.comparator.rank c.document)

namespace View

variable {q : Query K V R}

def shouldBeInLimbo (v : View q) (key : K) : Bool :=
  if v.syncedDocuments.contains key then false
  else
    match v.documentSet.find? key with
    | none => false
    | some doc => !doc.hasLocalMutations

def applyTargetChange (v : View q) :
    Option (TargetChange K) → Except (Fault K) (View q)
  | none => .ok v
  | some change =>
      let added := change.addedDocuments.list.foldl Keyed.Set.insert v.syncedDocuments
      match change.modifiedDocuments.list.find? fun key => !added.contains key with
      | some key => .error (.modifiedNotFound key)
      | none => .ok { v with
          syncedDocuments := change.removedDocuments.list.foldl Keyed.Set.erase added
          current := change.current }

/-- The documents in limbo, as far as they are known, and what has changed of them. -/
def updateLimboDocuments (v : View q) : View q × List (LimboDocumentChange K) :=
  if v.current then
    let limbo := (v.documentSet.list.map Document.key).foldl
      (fun keys key => if v.shouldBeInLimbo key then keys.insert key else keys) .empty
    ({ v with limboDocuments := limbo },
      ((v.limboDocuments.list.filter fun key => !limbo.contains key).map .removed) ++
        (limbo.list.filter fun key => !v.limboDocuments.contains key).map .added)
  else (v, [])

/-- The documents in limbo, the sync state and the snapshot, once the target change is in. -/
def report (v targeted : View q) (docChanges : ViewDocumentChanges q) (hasCachedResults : Bool) :
    View q × ViewChange q :=
  let changes := docChanges.changeSet.list.insertionSort fun a b => changeRank q a ≤ changeRank q b
  let (updated, limboChanges) := targeted.updateLimboDocuments
  let newSyncState : SyncState :=
    if updated.limboDocuments.isEmpty && updated.current then .synced else .local
  let syncStateChanged : Bool := newSyncState ≠ v.syncState
  let snapshot : ViewSnapshot q :=
    { documents := docChanges.documentSet, oldDocuments := v.documentSet
      documentChanges := changes, mutatedKeys := docChanges.mutatedKeys
      fromCache := newSyncState = .local, syncStateChanged, excludesMetadataChanges := false
      hasCachedResults }
  ({ updated with syncState := newSyncState },
    { snapshot := if changes.isEmpty && !syncStateChanged then none else some snapshot
      limboChanges })

def applyChanges (v : View q) (docChanges : ViewDocumentChanges q)
    (targetChange : Option (TargetChange K)) : Except (Fault K) (View q × ViewChange q) := do
  if docChanges.needsRefill then throw .needsRefill
  let targeted ← applyTargetChange
    { v with documentSet := docChanges.documentSet, mutatedKeys := docChanges.mutatedKeys }
    targetChange
  return v.report targeted docChanges
    (targetChange.any fun change => !change.resumeToken.isEmpty)

end View

inductive OnlineState where
  | unknown
  | online
  | offline
  deriving DecidableEq

def View.applyOnlineStateChange {q : Query K V R} (v : View q) (onlineState : OnlineState) :
    Except (Fault K) (View q × ViewChange q) :=
  if v.current && onlineState = .offline then
    View.applyChanges { v with current := false }
      { documentSet := v.documentSet, changeSet := .empty, mutatedKeys := v.mutatedKeys
        needsRefill := false }
      none
  else .ok (v, { snapshot := none, limboChanges := [] })

end

end Firebase
