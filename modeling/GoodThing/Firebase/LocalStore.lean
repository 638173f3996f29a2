/-
The local store.

What the app sees of a document is the cached one with the writes on it that the backend has
not answered.  These are not applied each time: for every document with such writes the store
keeps an overlay, a single mutation that stands for all of them, under the id of the last
batch that has one.

A new write is added to the overlay.  The overlay is worked out anew, from the queue, when a
batch with the document has been answered, and when the cached document appears or goes away
while the overlay is a patch.  If nothing comes out then, the overlay there was is left as it is.

Batches are answered in the order of the queue.  A loop over documents changes each on its
own, so it is told for one document here.
-/
import GoodThing.Firebase.Mutation
import GoodThing.Lib.Run

namespace Firebase.Local

variable {K S A : Type} [DecidableEq K] [LinearOrder S]

/-! ### Batches -/

structure Batch (K S A : Type) [LinearOrder S] where
  batchId : Nat
  mutations : List (Mutation K S A)

namespace Batch

/-- Whether the document is among `keys()`. -/
def touches (b : Batch K S A) (key : K) : Bool := b.mutations.any fun m => m.key = key

def applyToLocalView (b : Batch K S A) (document : MutableDocument K S A)
    (mask : Option (FieldMask S)) : MutableDocument K S A × Option (FieldMask S) :=
  b.mutations.foldl
    (fun view m => if m.key = view.1.key then m.applyToLocalView view.1 view.2 else view)
    (document, mask)

/-- `version i` is the version the backend gave the `i`-th mutation. -/
def applyToRemoteDocument (b : Batch K S A) (document : MutableDocument K S A)
    (version : Nat → Nat) : MutableDocument K S A :=
  b.mutations.zipIdx.foldl
    (fun d m => if m.1.key = d.key then m.1.applyToRemoteDocument d (version m.2) else d) document

/-- The version of the last mutation of a document. -/
def docVersion (b : Batch K S A) (key : K) (version : Nat → Nat) : Nat :=
  b.mutations.zipIdx.foldl (fun v m => if m.1.key = key then version m.2 else v) 0

/-- A document of the set and its overlay, after one more of its mutations was met. -/
def applyToEntry (b : Batch K S A) (mutatedFields : Option (FieldMask S))
    (entry : MutableDocument K S A × Option (Mutation K S A)) :
    MutableDocument K S A × Option (Mutation K S A) :=
  let view := b.applyToLocalView entry.1 mutatedFields
  -- `emplace`
  let overlay := entry.2 <|> Mutation.calculateOverlayMutation view.1 view.2
  (if view.1.isValidDocument then view.1 else view.1.convertToNoDocument 0, overlay)

/-- The overlay of one document of the set.  The whole batch is applied to the document once for
each of its mutations. -/
def applyToLocalDocumentSet (b : Batch K S A) (document : MutableDocument K S A)
    (mutatedFields : Option (FieldMask S)) : Option (Mutation K S A) :=
  ((b.mutations.filter fun m => m.key = document.key).foldl
    (fun entry _ => b.applyToEntry mutatedFields entry) (document, none)).2

end Batch

/-! ### The store -/

structure Overlay (K S A : Type) [LinearOrder S] where
  largestBatchId : Nat
  mutation : Mutation K S A

structure LocalStore (K S A : Type) [LinearOrder S] where
  /-- The cached document, invalid if there is none. -/
  remote : K → MutableDocument K S A
  queue : List (Batch K S A)
  nextBatchId : Nat
  overlays : K → Option (Overlay K S A)

/-- A document of a remote event; without a value the backend has none. -/
structure Update (K S A : Type) [LinearOrder S] where
  key : K
  version : Nat
  value : Option (ObjectValue S A)

def Update.document (u : Update K S A) : MutableDocument K S A :=
  match u.value with
  | some value => .foundDocument u.key u.version value
  | none => .noDocument u.key u.version

namespace LocalStore

def start : LocalStore K S A where
  remote := .invalidDocument
  queue := []
  nextBatchId := 1
  overlays _ := none

/-- Only a patch needs the cached document. -/
def getBaseDocument (s : LocalStore K S A) (key : K) : MutableDocument K S A :=
  match s.overlays key with
  | none => s.remote key
  | some overlay => if overlay.mutation.isPatch then s.remote key else .invalidDocument key

def getDocument (s : LocalStore K S A) (key : K) : MutableDocument K S A :=
  match s.overlays key with
  | none => s.getBaseDocument key
  | some overlay => (overlay.mutation.applyToLocalView (s.getBaseDocument key) (some ∅)).1

/-- The same by applying all batches of the queue. -/
def getDocumentOfBatches (s : LocalStore K S A) (key : K) : MutableDocument K S A :=
  s.queue.foldl (fun d b => (b.applyToLocalView d (some ∅)).1) (s.remote key)

/-- A document before a write, with the fields that are patched already. -/
def overlayedDocument (s : LocalStore K S A) (key : K) :
    MutableDocument K S A × Option (FieldMask S) :=
  match s.overlays key with
  | none => (s.remote key, some ∅)
  | some overlay =>
      ((overlay.mutation.applyToLocalView (s.remote key) none).1, overlay.mutation.fieldMask)

/-- Where there is nothing to save, the overlay stays. -/
def saveOverlay (largestBatchId : Nat) (mutation : Option (Mutation K S A))
    (overlay : Option (Overlay K S A)) : Option (Overlay K S A) :=
  match mutation with
  | some mutation => some ⟨largestBatchId, mutation⟩
  | none => overlay

def writeLocally (s : LocalStore K S A) (mutations : List (Mutation K S A)) : LocalStore K S A :=
  if mutations.isEmpty then s
  else
    let batch : Batch K S A := ⟨s.nextBatchId, mutations⟩
    { s with
      nextBatchId := s.nextBatchId + 1
      queue := s.queue ++ [batch]
      overlays := fun key =>
        if batch.touches key then
          let document := s.overlayedDocument key
          saveOverlay batch.batchId (batch.applyToLocalDocumentSet document.1 document.2)
            (s.overlays key)
        else s.overlays key }

/-- The overlay of a document, worked out from the queue. -/
def recalculateAndSaveOverlay (s : LocalStore K S A) (key : K)
    (document : MutableDocument K S A) : Option (Overlay K S A) :=
  let batches := s.queue.filter fun b => b.touches key
  let view := batches.foldl (fun view b => b.applyToLocalView view.1 view.2) (document, some ∅)
  match batches.getLast? with
  | none => s.overlays key
  | some last =>
      saveOverlay last.batchId (Mutation.calculateOverlayMutation view.1 view.2) (s.overlays key)

/-- The end of a batch, acknowledged or rejected. -/
def removeBatch (s : LocalStore K S A) (batch : Batch K S A) (rest : List (Batch K S A)) :
    LocalStore K S A :=
  let s := { s with
    queue := rest
    -- `RemoveOverlaysForBatchId`
    overlays := fun key => (s.overlays key).filter fun o => o.largestBatchId ≠ batch.batchId }
  { s with
    overlays := fun key =>
      if batch.touches key then s.recalculateAndSaveOverlay key (s.remote key)
      else s.overlays key }

/-- The cached document after an acknowledgement. -/
def applyBatchResult (batch : Batch K S A) (version : Nat → Nat)
    (document : MutableDocument K S A) : MutableDocument K S A :=
  if document.version < batch.docVersion document.key version then
    let applied := batch.applyToRemoteDocument document version
    if applied.isValidDocument then applied else document
  else document

/-- `GetKeysWithTransformResults` is all keys of the batch: what it asks of each result is the
size of a repeated field in the message's descriptor, which is always zero. -/
def acknowledgeBatch (s : LocalStore K S A) (version : Nat → Nat) : LocalStore K S A :=
  match s.queue with
  | [] => s
  | batch :: rest =>
      let s := { s with
        remote := fun key =>
          if batch.touches key then applyBatchResult batch version (s.remote key)
          else s.remote key }
      s.removeBatch batch rest

def rejectBatch (s : LocalStore K S A) : LocalStore K S A :=
  match s.queue with
  | [] => s
  | batch :: rest => s.removeBatch batch rest

/-- What a document of a remote event does to the cached one, if anything. -/
def populateDocumentChange (existing document : MutableDocument K S A) :
    Option (MutableDocument K S A) :=
  -- The document of a limbo resolution that was rejected: access to it is lost.
  if document.isNoDocument && document.version = 0 then some (.invalidDocument document.key)
  else if !existing.isValidDocument || existing.version < document.version ||
      (document.version = existing.version && existing.hasPendingWrites) then some document
  else none

def populateDocumentChanges (s : LocalStore K S A) (updates : List (Update K S A)) (key : K) :
    Option (MutableDocument K S A) :=
  (updates.find? fun u => u.key = key).bind fun u =>
    populateDocumentChange (s.remote key) u.document

def applyRemoteEvent (s : LocalStore K S A) (updates : List (Update K S A)) : LocalStore K S A :=
  let changed := s.populateDocumentChanges updates
  let after := { s with remote := fun key => (changed key).getD (s.remote key) }
  { after with
    overlays := fun key =>
      match updates.find? fun u => u.key = key with
      | none => s.overlays key
      | some u =>
          if (changed key).isSome && u.document.isFoundDocument != (s.remote key).isFoundDocument &&
              (s.overlays key).all (fun o => o.mutation.isPatch) then
            after.recalculateAndSaveOverlay key u.document
          else s.overlays key }

inductive Action (K S A : Type) [LinearOrder S] where
  | write (writes : List (K × Write S A))
  | acknowledge (version : Nat → Nat)
  | reject
  | remoteEvent (updates : List (Update K S A))

def step (s : LocalStore K S A) : Action K S A → LocalStore K S A
  | .write writes => s.writeLocally (writes.map fun w => w.2.toMutation w.1)
  | .acknowledge version => s.acknowledgeBatch version
  | .reject => s.rejectBatch
  | .remoteEvent updates => s.applyRemoteEvent updates

end LocalStore

end Firebase.Local
