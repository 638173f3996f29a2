/-
From the local store to the listener of a query.

The sync engine hands every change of the local store to the view of the query, tracks the
documents it reports in limbo, and passes its snapshots on to the listener.  The listener
holds them back until there is something to show, turns the first one it raises into one
that adds every document, and otherwise raises those that change something the caller has
asked for.

`Session` puts these together with what a caller can make of the document changes: one keeps
no more than a list and changes it at the positions they name, another keeps the documents
by key.
-/
import GoodThing.Firebase.View
import GoodThing.Lib.Run

namespace Firebase

variable {K V R : Type} [LinearOrder K] [LinearOrder R] {q : Query K V R}

/-! ### The listener -/

structure ListenOptions where
  includeQueryMetadataChanges : Bool
  includeDocumentMetadataChanges : Bool
  waitForSyncWhenOnline : Bool

structure QueryListener (q : Query K V R) where
  options : ListenOptions
  raisedInitialEvent : Bool
  onlineState : OnlineState
  snapshot : Option (ViewSnapshot q)

namespace ViewSnapshot

def hasPendingWrites (s : ViewSnapshot q) : Bool := !s.mutatedKeys.isEmpty

/-- A snapshot that adds every document. -/
def fromInitialDocuments (s : ViewSnapshot q) : ViewSnapshot q :=
  { s with
    oldDocuments := .empty
    documentChanges := s.documents.list.map fun doc => ⟨doc, .added⟩
    syncStateChanged := true }

end ViewSnapshot

namespace QueryListener

def shouldRaiseInitialEvent (l : QueryListener q) (snapshot : ViewSnapshot q)
    (onlineState : OnlineState) : Bool :=
  if !snapshot.fromCache then true
  else if l.options.waitForSyncWhenOnline && onlineState ≠ .offline then false
  else !snapshot.documents.isEmpty || snapshot.hasCachedResults || onlineState = .offline

def shouldRaiseEvent (l : QueryListener q) (snapshot : ViewSnapshot q) : Bool :=
  if !snapshot.documentChanges.isEmpty then true
  else
    let hasPendingWritesChanged :=
      l.snapshot.any fun s => s.hasPendingWrites ≠ snapshot.hasPendingWrites
    if snapshot.syncStateChanged || hasPendingWritesChanged then
      l.options.includeQueryMetadataChanges
    else false

/-- Metadata-only changes are left out unless they were asked for. -/
def strip (l : QueryListener q) (snapshot : ViewSnapshot q) : ViewSnapshot q :=
  if l.options.includeDocumentMetadataChanges then snapshot
  else { snapshot with
    documentChanges := snapshot.documentChanges.filter fun change => change.type ≠ .metadata
    excludesMetadataChanges := true }

/-- The listener and the snapshot it raises. -/
def onViewSnapshot (l : QueryListener q) (snapshot : ViewSnapshot q) :
    Except (Fault K) (QueryListener q × Option (ViewSnapshot q)) :=
  if snapshot.documentChanges.isEmpty && !snapshot.syncStateChanged then .error .noChanges
  else
    let stripped := l.strip snapshot
    let next := { l with snapshot := some stripped }
    if !l.raisedInitialEvent then
      if l.shouldRaiseInitialEvent stripped l.onlineState then
        .ok ({ next with raisedInitialEvent := true }, some stripped.fromInitialDocuments)
      else .ok (next, none)
    else if l.shouldRaiseEvent stripped then .ok (next, some stripped)
    else .ok (next, none)

def onOnlineStateChanged (l : QueryListener q) (onlineState : OnlineState) :
    QueryListener q × Option (ViewSnapshot q) :=
  let next := { l with onlineState }
  match l.snapshot with
  | none => (next, none)
  | some snapshot =>
      if !l.raisedInitialEvent && l.shouldRaiseInitialEvent snapshot onlineState then
        ({ next with raisedInitialEvent := true }, some snapshot.fromInitialDocuments)
      else (next, none)

end QueryListener

/-! ### The changes as the caller sees them -/

inductive DocumentChangeType where
  | added
  | modified
  | removed
  deriving DecidableEq

/-- An entry of `documentChanges`; an index is `none` where there is no position. -/
structure DocumentChange (K V : Type) where
  type : DocumentChangeType
  document : Document K V
  hasPendingWrites : Bool
  isFromCache : Bool
  oldIndex : Option Nat
  newIndex : Option Nat

def documentChangeTypeForChange : ChangeType → DocumentChangeType
  | .added => .added
  | .modified => .modified
  | .metadata => .modified
  | .removed => .removed

namespace ViewSnapshot

def documentChange (s : ViewSnapshot q) (change : DocumentViewChange K V)
    (oldIndex newIndex : Option Nat) : DocumentChange K V where
  type := documentChangeTypeForChange change.type
  document := change.document
  hasPendingWrites := s.mutatedKeys.contains change.document.key
  isFromCache := s.fromCache
  oldIndex := oldIndex
  newIndex := newIndex

/-- The changes of a first snapshot, which are all additions. -/
def firstChanges (s : ViewSnapshot q) : Nat → Option (Document K V) →
    List (DocumentViewChange K V) → Except (Fault K) (List (DocumentChange K V))
  | _, _, [] => .ok []
  | index, lastDocument, change :: rest =>
      if change.type ≠ .added then .error .invalidFirstType
      else if lastDocument.any fun last =>
          !decide (q.comparator.rank last < q.comparator.rank change.document) then
        .error .wrongOrder
      else do
        let changes ← s.firstChanges (index + 1) (some change.document) rest
        return s.documentChange change none (some index) :: changes

/-- Where the document of a change is before it. -/
def oldIndex (tracker : DocumentSet q) (change : DocumentViewChange K V) :
    Except (Fault K) (Option Nat) :=
  if change.type = .added then .ok none
  else
    match tracker.indexOf? change.document.key with
    | some index => .ok (some index)
    | none => .error .indexNotFound

/-- The changes one after the other, with the positions at that moment. -/
def laterChanges (s : ViewSnapshot q) (includeMetadataChanges : Bool) : DocumentSet q →
    List (DocumentViewChange K V) → Except (Fault K) (List (DocumentChange K V))
  | _, [] => .ok []
  | tracker, change :: rest =>
      if !includeMetadataChanges && change.type = .metadata then
        s.laterChanges includeMetadataChanges tracker rest
      else do
        let oldIndex ← oldIndex tracker change
        let erased := if change.type = .added then tracker
          else tracker.erase change.document.key
        let inserted := if change.type = .removed then erased else erased.insert change.document
        let newIndex := if change.type = .removed then none
          else inserted.indexOf? change.document.key
        let changes ← s.laterChanges includeMetadataChanges inserted rest
        return s.documentChange change oldIndex newIndex :: changes

/-- `none`: an argument the caller must not pass. -/
def forEachChange (s : ViewSnapshot q) (includeMetadataChanges : Bool) :
    Option (Except (Fault K) (List (DocumentChange K V))) :=
  if includeMetadataChanges && s.excludesMetadataChanges then none
  else if s.oldDocuments.isEmpty then some (s.firstChanges 0 none s.documentChanges)
  else some (s.laterChanges includeMetadataChanges s.oldDocuments s.documentChanges)

/-- `documentChanges`, without metadata changes. -/
def documentChangeList (s : ViewSnapshot q) : Except (Fault K) (List (DocumentChange K V)) :=
  (s.forEachChange false).getD (.ok [])

end ViewSnapshot

/-- A caller's list after one change: out at the old position, in at the new one. -/
def DocumentChange.replay (items : List (K × V)) (change : DocumentChange K V) : List (K × V) :=
  let removed := match change.oldIndex with
    | some index => items.eraseIdx index
    | none => items
  match change.newIndex with
  | some index => removed.insertIdx index (change.document.key, change.document.value)
  | none => removed

/-- What a caller knows of each document after one change. -/
def DocumentChange.record (known : K → Option V) (change : DocumentChange K V) : K → Option V :=
  fun k =>
    if k = change.document.key then
      if change.type = .removed then none else some change.document.value
    else known k

/-! ### The sync engine -/

/-- One query from the local store to its caller. -/
structure Session (q : Query K V R) where
  /-- The documents of the local store, deleted ones included. -/
  store : DocumentMap K V
  view : View q
  /-- The documents in limbo the engine resolves for this view. -/
  limboDocumentRefs : DocumentKeySet K
  listener : QueryListener q
  /-- The document changes of every event so far. -/
  raised : List (List (DocumentChange K V))

/-- The local documents that match a query. -/
def executeQuery (q : Query K V R) (store : DocumentMap K V) : DocumentMap K V :=
  store.filter q.matchesDocument

def updateTrackedLimboDocument (refs : DocumentKeySet K) :
    LimboDocumentChange K → DocumentKeySet K
  | .added key => refs.insert key
  | .removed key => refs.erase key

namespace Session

/-- A snapshot goes to the listener, and what it raises to the caller. -/
def raise (s : Session q) (event : QueryListener q × Option (ViewSnapshot q)) :
    Except (Fault K) (Session q) :=
  match event.2 with
  | none => .ok { s with listener := event.1 }
  | some snapshot => do
      let changes ← snapshot.documentChangeList
      return { s with listener := event.1, raised := s.raised ++ [changes] }

/-- What a caller has who replays the document changes. -/
def shown (s : Session q) : List (K × V) := s.raised.flatten.foldl DocumentChange.replay []

/-- What a caller knows who keeps the documents by key. -/
def known (s : Session q) : K → Option V :=
  s.raised.flatten.foldl DocumentChange.record fun _ => none

def onViewSnapshot (s : Session q) : Option (ViewSnapshot q) → Except (Fault K) (Session q)
  | none => .ok s
  | some snapshot => do s.raise (← s.listener.onViewSnapshot snapshot)

/-- The local store has new documents. -/
def stored (s : Session q) (changes : DocumentMap K V) : Session q :=
  { s with store := changes.list.foldl Keyed.Set.insert s.store }

variable [DecidableEq V]

/-- The changes of the view's documents, with a second round where one is needed. -/
def viewDocChanges (s : Session q) (changes : DocumentMap K V) :
    Except (Fault K) (ViewDocumentChanges q) := do
  let viewDocChanges ← s.view.computeDocumentChanges changes none
  if viewDocChanges.needsRefill then
    s.view.computeDocumentChanges (executeQuery q s.store) (some viewDocChanges)
  else return viewDocChanges

/-- The view and the documents it has in limbo are replaced. -/
def withView (s : Session q) (view : View q) (change : ViewChange q) : Session q :=
  { s with
    view
    limboDocumentRefs := change.limboChanges.foldl updateTrackedLimboDocument s.limboDocumentRefs }

/-- Documents of the local store have changed. -/
def emitNewSnapshotsAndNotifyLocalStore (s : Session q) (changes : DocumentMap K V)
    (targetChange : Option (TargetChange K)) : Except (Fault K) (Session q) := do
  let viewDocChanges ← (s.stored changes).viewDocChanges changes
  let (view, viewChange) ← s.view.applyChanges viewDocChanges targetChange
  ((s.stored changes).withView view viewChange).onViewSnapshot viewChange.snapshot

def handleOnlineStateChange (s : Session q) (onlineState : OnlineState) :
    Except (Fault K) (Session q) := do
  let (view, viewChange) ← s.view.applyOnlineStateChange onlineState
  if !viewChange.limboChanges.isEmpty then throw .limboAffected
  let told ← onViewSnapshot { s with view } viewChange.snapshot
  told.raise (told.listener.onOnlineStateChanged onlineState)

/-- What a new listener finds. -/
structure Start (K V : Type) [LinearOrder K] where
  store : DocumentMap K V
  remoteKeys : DocumentKeySet K
  /-- Another query with the same target is in sync. -/
  mirrorSynced : Bool
  resumeToken : List UInt8
  options : ListenOptions
  onlineState : OnlineState

/-- A session before its view has documents. -/
def opened (q : Query K V R) (start : Start K V) : Session q where
  store := start.store
  view := View.new q start.remoteKeys
  limboDocumentRefs := .empty
  listener := {
    options := start.options, raisedInitialEvent := false
    onlineState := start.onlineState, snapshot := none }
  raised := []

/-- The first listener of a query. -/
def listen (q : Query K V R) (start : Start K V) : Except (Fault K) (Session q) := do
  let s := opened q start
  let viewDocChanges ← s.view.computeDocumentChanges (executeQuery q start.store) none
  let (view, viewChange) ← s.view.applyChanges viewDocChanges
    (some (.createSynthesizedTargetChange start.mirrorSynced start.resumeToken))
  if viewChange.snapshot.isNone then throw .noFirstSnapshot
  (s.withView view viewChange).onViewSnapshot viewChange.snapshot

inductive Event (K V : Type) [LinearOrder K] where
  | changed (changes : DocumentMap K V) (targetChange : Option (TargetChange K))
  | online (onlineState : OnlineState)

def step (s : Session q) : Event K V → Except (Fault K) (Session q)
  | .changed changes targetChange => s.emitNewSnapshotsAndNotifyLocalStore changes targetChange
  | .online onlineState => s.handleOnlineStateChange onlineState

/-- An event, unless an assertion has failed before. -/
def stepOrFault (session : Except (Fault K) (Session q)) (event : Event K V) :
    Except (Fault K) (Session q) := do
  (← session).step event

/-- A listener from its start through a list of events. -/
def run (q : Query K V R) (start : Start K V) (events : List (Event K V)) :
    Except (Fault K) (Session q) :=
  Machine.run stepOrFault (listen q start) events

end Session

end Firebase
