/-
The way of a write to the backend.

A write is put into the mutation queue, which outlives the process, and stays there until the
backend has answered it.  `RemoteStore` keeps the first few batches of the current user's
queue in a pipeline and sends them over a stream, in order and without waiting for the
answers.  A response does not say which batch it is for: it is taken for the first one of the
pipeline, and so is an error that ends the stream, wherever it comes from.

A stream can break at any time and with any error, with requests and responses on their way, and
it is broken off when a response does not parse.  The responses are then lost; of the requests
nobody knows, and the backend may still commit them later.  Nothing is resent but by sending the
whole pipeline over a new stream.  The backend itself ends a stream only with an error, about the
first request it has not answered.
-/
import GoodThing.Firebase.Transaction
import GoodThing.Lib.Keyed
import Mathlib.Data.Prod.Lex

namespace Firebase

def isPermanentWriteError (code : Code) : Bool := isPermanentError code && code ≠ .aborted

/-- The assertions that can fail, by what they say. -/
inductive WriteFault where
  /-- Already started -/
  | alreadyStarted
  /-- State should still be 'Starting' -/
  | notStarting
  /-- Should only perform backoff in an error case -/
  | backoffNoError
  /-- Backoff elapsed but state is now: %s -/
  | backoffLeft
  /-- Stream should have started. -/
  | restartFailed
  /-- Can only cancel backoff in a stopped state -/
  | backoffNotStopped
  /-- OnStreamRead called for a stopped stream. -/
  | readStopped
  /-- Trying to close a non-started stream -/
  | closeNotStarted
  /-- Cannot write when the stream is not open. -/
  | notOpen
  /-- Writing handshake requires an opened stream -/
  | handshakeNotOpen
  /-- Handshake already completed -/
  | handshakeTwice
  /-- Writing mutations requires an opened stream -/
  | writeNotOpen
  /-- Handshake must be complete before writing mutations -/
  | writeBeforeHandshake
  /-- AddToWritePipeline called when pipeline is full -/
  | pipelineFull
  /-- StartWriteStream called when ShouldStartWriteStream is false. -/
  | startNotNeeded
  /-- Got result for empty write pipeline -/
  | emptyPipeline
  /-- Write stream was stopped gracefully while still needed. -/
  | stoppedWhileNeeded
  /-- Mutation batch %s did not exist -/
  | batchMissing
  /-- Attempt to reject nonexistent batch! -/
  | rejectMissing
  deriving DecidableEq

/-- A batch of the queue, under its key there: the user and the batch id. -/
structure MutationBatch (U M : Type) where
  user : U
  batchId : Int
  mutations : M
  /-- How many batches the user had written before; no code reads it. -/
  serial : Nat

variable {U M : Type} [LinearOrder U]

/-- The rows of the mutation table are in the order of their keys. -/
def mutationOrder : Keyed.Order (MutationBatch U M) (U × Int) (U ×ₗ Int) where
  key b := (b.user, b.batchId)
  rank b := toLex (b.user, b.batchId)
  key_eq h := toLex_inj.mp h

abbrev MutationTable (U M : Type) [LinearOrder U] := Keyed.Set (mutationOrder (U := U) (M := M))

namespace MutationTable

/-- The rows of one user. -/
def queue (table : MutationTable U M) (user : U) : List (MutationBatch U M) :=
  (table.filter fun b => b.user = user).list

/-- One more than the largest batch id of any user. -/
def loadNextBatchIdFromDb (table : MutationTable U M) : Int :=
  (table.list.map MutationBatch.batchId).foldl max 0 + 1

def nextMutationBatchAfterBatchId (table : MutationTable U M) (user : U) (batchId : Int) :
    Option (MutationBatch U M) :=
  (table.queue user).find? fun b => batchId + 1 ≤ b.batchId

end MutationTable

/-- `Healthy` is left out: it counts as open. -/
inductive StreamState where
  | initial
  | starting
  | «open»
  | error
  | backoff
  deriving DecidableEq

inductive WriteRequest (U M : Type) where
  | handshake
  | mutations (batch : MutationBatch U M)

inductive WriteResponse (U M : Type) where
  | handshake
  /-- Which batch it is for is not in the response. -/
  | result (batch : MutationBatch U M)

def WriteRequest.batch? : WriteRequest U M → Option (MutationBatch U M)
  | .handshake => none
  | .mutations batch => some batch

/-- What a stream waits for on its way to be open. -/
structure Connection where
  /-- How often the stream has been closed. -/
  closeCount : Nat
  /-- The credentials that have not come yet, each with the close count when they were asked for. -/
  credentialRequests : List Nat
  /-- The gRPC stream, and whether it has started. -/
  grpcStream : Option Bool
  /-- The delayed operation of the backoff is scheduled. -/
  backoffTimer : Bool

namespace Connection

def unused : Connection := ⟨0, [], none, false⟩

def requestCredentials (c : Connection) : Connection :=
  { c with credentialRequests := c.credentialRequests ++ [c.closeCount] }

def closed (c : Connection) : Connection :=
  { c with closeCount := c.closeCount + 1, grpcStream := none, backoffTimer := false }

end Connection

/-- The client, the backend, and what is on its way between them. -/
structure Writes (U M : Type) [LinearOrder U] where
  table : MutationTable U M
  nextBatchId : Int
  currentUser : U
  /-- The callers that wait: by user and batch id, with the serial of what they have written. -/
  mutationCallbacks : List ((U × Int) × Nat)
  isNetworkEnabled : Bool
  writePipeline : List (MutationBatch U M)
  state : StreamState
  connection : Connection
  handshakeComplete : Bool
  idlenessTimer : Bool
  /-- What has been sent over the stream and not been taken from it. -/
  requests : List (WriteRequest U M)
  responses : List (WriteResponse U M)
  /-- The backend ends the stream with an error about the first request left. -/
  finishing : Option Code
  /-- Requests of earlier streams that the backend may still commit. -/
  abandoned : List (List (MutationBatch U M))
  /-- What the backend has committed, oldest first. -/
  committed : List (MutationBatch U M)
  /-- What it has refused, and with which error. -/
  refused : List (MutationBatch U M × Code)
  /-- What came first in the pipeline when an error that was not the backend's ended a stream. -/
  blamed : List (MutationBatch U M × Code)
  written : U → List (MutationBatch U M)
  /-- What has become of the batches that are in the queue no more. -/
  answered : U → List (MutationBatch U M × Status)
  /-- What callers have been told: the user, the serial and the status. -/
  notified : List (U × Nat × Status)

def kMaxPendingWrites : Nat := 10

def kBatchIdUnknown : Int := -1

namespace Writes

variable (s : Writes U M)

def queue : List (MutationBatch U M) := s.table.queue s.currentUser

/-! ### The stream -/

def isOpen : Bool := s.state = .open

def isStarted : Bool := s.state = .starting || s.state = .backoff || s.isOpen

def backoffAndTryRestarting : Except WriteFault (Writes U M) :=
  if s.state = .error then
    .ok { s with state := .backoff, connection := { s.connection with backoffTimer := true } }
  else .error .backoffNoError

def start : Except WriteFault (Writes U M) :=
  if s.state = .error then s.backoffAndTryRestarting
  else if s.state = .initial then
    .ok { s with state := .starting, connection := s.connection.requestCredentials }
  else .error .alreadyStarted

/-- What the backoff has delayed. -/
def restart : Except WriteFault (Writes U M) :=
  if s.state = .backoff then do
    let s ← { s with state := .initial }.start
    if s.isStarted then .ok s else .error .restartFailed
  else .error .backoffLeft

def inhibitBackoff : Except WriteFault (Writes U M) :=
  if s.isStarted then .error .backoffNotStopped else .ok { s with state := .initial }

def markIdle : Writes U M := if s.isOpen then { s with idlenessTimer := true } else s

def write (request : WriteRequest U M) : Except WriteFault (Writes U M) :=
  if s.isOpen then .ok { s with idlenessTimer := false, requests := s.requests ++ [request] }
  else .error .notOpen

def writeHandshake : Except WriteFault (Writes U M) :=
  if !s.isOpen then .error .handshakeNotOpen
  else if s.handshakeComplete then .error .handshakeTwice
  else s.write .handshake

def writeMutations (batch : MutationBatch U M) : Except WriteFault (Writes U M) :=
  if !s.isOpen then .error .writeNotOpen
  else if !s.handshakeComplete then .error .writeBeforeHandshake
  else s.write (.mutations batch)

/-! ### The pipeline -/

def canUseNetwork : Bool := s.isNetworkEnabled

def canAddToWritePipeline : Bool :=
  s.canUseNetwork && s.writePipeline.length < kMaxPendingWrites

def addToWritePipeline (batch : MutationBatch U M) : Except WriteFault (Writes U M) :=
  if !s.canAddToWritePipeline then .error .pipelineFull
  else
    let s := { s with writePipeline := s.writePipeline ++ [batch] }
    if s.isOpen && s.handshakeComplete then s.writeMutations batch else .ok s

def shouldStartWriteStream : Bool :=
  s.canUseNetwork && !s.isStarted && !s.writePipeline.isEmpty

def startWriteStream : Except WriteFault (Writes U M) :=
  if s.shouldStartWriteStream then s.start else .error .startNotNeeded

def startIfNeeded : Except WriteFault (Writes U M) :=
  if s.shouldStartWriteStream then s.startWriteStream else .ok s

/-- The loop of `FillWritePipeline`; each round takes one of the free places. -/
def fillLoop : Nat → Int → Writes U M → Except WriteFault (Writes U M)
  | 0, _, s => .ok s
  | places + 1, lastBatchIdRetrieved, s =>
      if s.canAddToWritePipeline then
        match s.table.nextMutationBatchAfterBatchId s.currentUser lastBatchIdRetrieved with
        | none => .ok (if s.writePipeline.isEmpty then s.markIdle else s)
        | some batch => do fillLoop places batch.batchId (← s.addToWritePipeline batch)
      else .ok s

def lastBatchId : Int := (s.writePipeline.getLast?.map MutationBatch.batchId).getD kBatchIdUnknown

def fillWritePipeline : Except WriteFault (Writes U M) := do
  startIfNeeded (← fillLoop (kMaxPendingWrites - s.writePipeline.length) s.lastBatchId s)

/-! ### Answers -/

/-- The caller that waits for this batch of the current user is told. -/
def notifyUser (batchId : Int) (status : Status) : Writes U M :=
  match s.mutationCallbacks.lookup (s.currentUser, batchId) with
  | some serial => { s with
      notified := s.notified ++ [(s.currentUser, serial, status)]
      mutationCallbacks := s.mutationCallbacks.filter fun x => x.1 ≠ (s.currentUser, batchId) }
  | none => s

/-- A batch leaves the queue. -/
def removeMutationBatch (batch : MutationBatch U M) (status : Status) :
    Except WriteFault (Writes U M) :=
  if s.table.contains (s.currentUser, batch.batchId) then
    .ok { s with
      table := s.table.erase (s.currentUser, batch.batchId)
      answered := Function.update s.answered s.currentUser
        (s.answered s.currentUser ++ [(batch, status)]) }
  else .error .batchMissing

def handleSuccessfulWrite (batch : MutationBatch U M) : Except WriteFault (Writes U M) :=
  (s.notifyUser batch.batchId (.ok ())).removeMutationBatch batch (.ok ())

def handleRejectedWrite (batchId : Int) (code : Code) : Except WriteFault (Writes U M) :=
  match s.table.find? (s.currentUser, batchId) with
  | none => .error .rejectMissing
  | some batch => do
      return (← s.removeMutationBatch batch (.error code)).notifyUser batchId (.error code)

def onWriteStreamMutationResult : Except WriteFault (Writes U M) :=
  match s.writePipeline with
  | [] => .error .emptyPipeline
  | batch :: rest => do
      (← { s with writePipeline := rest }.handleSuccessfulWrite batch).fillWritePipeline

def onWriteStreamHandshakeComplete : Except WriteFault (Writes U M) :=
  s.writePipeline.foldlM (fun s batch => s.writeMutations batch) s

/-- An error that comes again with the same request is the end of the first batch. -/
def handleWriteError (code : Code) : Except WriteFault (Writes U M) :=
  if !isPermanentWriteError code then .ok s
  else
    match s.writePipeline with
    | [] => .error .emptyPipeline
    | batch :: rest => do
        let s ← { s with writePipeline := rest }.inhibitBackoff
        (← s.handleRejectedWrite batch.batchId code).fillWritePipeline

/-- `none`: the stream was stopped, and not by an error. -/
def onWriteStreamClose : Option Code → Except WriteFault (Writes U M)
  | none => if s.shouldStartWriteStream then .error .stoppedWhileNeeded else s.startIfNeeded
  | some code => do
      if !s.writePipeline.isEmpty && s.handshakeComplete then
        (← s.handleWriteError code).startIfNeeded
      else s.startIfNeeded

/-- What the backend has not taken from the stream is out of the client's hands. -/
def abandon : Writes U M :=
  { s with
    requests := []
    responses := []
    finishing := none
    abandoned := if s.finishing.isSome then s.abandoned
      else s.abandoned ++ [s.requests.filterMap WriteRequest.batch?] }

def close (status : Option Code) : Except WriteFault (Writes U M) :=
  if status.isNone && !s.isStarted then .ok s
  else if !s.isStarted then .error .closeNotStarted
  else do
    let s := { s.abandon with
      idlenessTimer := false
      connection := s.connection.closed
      state := if status.isNone then .initial else .error }
    return { ← s.onWriteStreamClose status with handshakeComplete := false }

/-- The credentials have come, or an error in their place. -/
def resumeStartWithCredentials (error : Option Code) : Except WriteFault (Writes U M) :=
  if s.state = .starting then
    match error with
    | some code => s.close (some code)
    | none => .ok { s with connection := { s.connection with grpcStream := some false } }
  else .error .notStarting

def onStreamStart : Except WriteFault (Writes U M) :=
  { s with
    state := .open
    connection := { s.connection with grpcStream := some true } }.writeHandshake

/-- A response has been read; if it does not parse, the stream ends. -/
def onStreamRead (parses : Bool) : Except WriteFault (Writes U M) :=
  if !s.isStarted then .error .readStopped
  else if !parses then s.close (some .dataLoss)
  else if s.handshakeComplete then s.onWriteStreamMutationResult
  else { s with handshakeComplete := true }.onWriteStreamHandshakeComplete

/-! ### The network and the user -/

def enableNetwork : Except WriteFault (Writes U M) :=
  { s with isNetworkEnabled := true }.fillWritePipeline

def disableNetwork : Except WriteFault (Writes U M) := do
  return { ← { s with isNetworkEnabled := false }.close none with writePipeline := [] }

def restartNetwork : Except WriteFault (Writes U M) := do
  (← (← s.disableNetwork).inhibitBackoff).enableNetwork

/-- Of the remote store, when the user or the connection changes. -/
def restartIfEnabled : Except WriteFault (Writes U M) :=
  if s.canUseNetwork then s.restartNetwork else .ok s

/-- The queue of another user is opened. -/
def handleUserChange (user : U) : Writes U M :=
  { s with currentUser := user, nextBatchId := s.table.loadNextBatchIdFromDb }

def handleCredentialChange (user : U) : Except WriteFault (Writes U M) :=
  (if s.currentUser = user then s else s.handleUserChange user).restartIfEnabled

/-- The process is gone, and the app is opened again; of all its data the table is left. -/
def launch (user : U) : Except WriteFault (Writes U M) :=
  { s.abandon.handleUserChange user with
    mutationCallbacks := [], writePipeline := [], state := .initial, connection := .unused
    handshakeComplete := false, idlenessTimer := false }.enableNetwork

/-- `SyncEngine::WriteMutations`, up to the pipeline. -/
def writeLocally (mutations : M) : Except WriteFault (Writes U M) :=
  let batch : MutationBatch U M :=
    { user := s.currentUser, batchId := s.nextBatchId, mutations
      serial := (s.written s.currentUser).length }
  { s with
    table := s.table.insert batch
    nextBatchId := s.nextBatchId + 1
    written := Function.update s.written s.currentUser (s.written s.currentUser ++ [batch])
    -- A callback that is registered under this key would not be replaced.
    mutationCallbacks :=
      if (s.mutationCallbacks.lookup (s.currentUser, batch.batchId)).isSome
      then s.mutationCallbacks
      else s.mutationCallbacks ++ [((s.currentUser, batch.batchId), batch.serial)]
  }.fillWritePipeline

/-! ### Whatever happens -/

/-- The app has been installed. -/
def installed (user : U) : Writes U M where
  table := .empty
  nextBatchId := MutationTable.loadNextBatchIdFromDb (U := U) (M := M) .empty
  currentUser := user
  mutationCallbacks := []
  isNetworkEnabled := true
  writePipeline := []
  state := .initial
  connection := .unused
  handshakeComplete := false
  idlenessTimer := false
  requests := []
  responses := []
  finishing := none
  abandoned := []
  committed := []
  refused := []
  blamed := []
  written _ := []
  answered _ := []
  notified := []

inductive Action (U M : Type) where
  | write (mutations : M)
  | enableNetwork
  | disableNetwork
  | connectivityChanged
  | credentialChanged (user : U)
  | launch (user : U)
  /-- The credentials that were asked for at a close count come, or an error. -/
  | credentialsReceived (request : Nat) (error : Option Code)
  | streamStarted
  | backoffElapsed
  | idleElapsed
  /-- The connection fails. -/
  | streamBroken (code : Code)
  | responseRead (parses : Bool)
  | errorRead
  | handshakeAnswered
  | commit
  | refuse (code : Code)
  /-- The backend commits the next request of an earlier stream. -/
  | commitLate (stream : Nat)

/-- The backend takes the next request from the stream. -/
def serve : Action U M → Writes U M
  | .handshakeAnswered =>
      match s.requests with
      | .handshake :: rest =>
          { s with requests := rest, responses := s.responses ++ [.handshake] }
      | _ => s
  | .commit =>
      match s.finishing, s.requests with
      | none, .mutations batch :: rest => { s with
          requests := rest
          responses := s.responses ++ [.result batch]
          committed := s.committed ++ [batch] }
      | _, _ => s
  | .refuse code =>
      match s.finishing, s.requests with
      | none, .mutations batch :: _ =>
          if isPermanentWriteError code then
            { s with finishing := some code, refused := s.refused ++ [(batch, code)] }
          else s
      | _, _ => s
  | .commitLate stream =>
      match s.abandoned[stream]? with
      | some (batch :: rest) => { s with
          abandoned := s.abandoned.set stream rest
          committed := s.committed ++ [batch] }
      | _ => s
  | _ => s

/-- The batch that an error will be taken to be about; no code reads it. -/
def blame (code : Code) : Writes U M :=
  if s.handshakeComplete && isPermanentWriteError code then
    { s with blamed := s.blamed ++ s.writePipeline.head?.toList.map fun batch => (batch, code) }
  else s

def step (a : Action U M) : Except WriteFault (Writes U M) :=
  match a with
  | .write mutations => s.writeLocally mutations
  | .enableNetwork => s.enableNetwork
  | .disableNetwork => s.disableNetwork
  | .connectivityChanged => s.restartIfEnabled
  | .credentialChanged user => s.handleCredentialChange user
  | .launch user => s.launch user
  | .credentialsReceived request error =>
      if request ∈ s.connection.credentialRequests then
        let t := { s with connection := { s.connection with
          credentialRequests := s.connection.credentialRequests.erase request } }
        -- The stream may have been closed since.
        if s.connection.closeCount = request then t.resumeStartWithCredentials error else .ok t
      else .ok s
  | .streamStarted =>
      if s.connection.grpcStream = some false then s.onStreamStart else .ok s
  | .backoffElapsed =>
      if s.connection.backoffTimer then
        { s with connection := { s.connection with backoffTimer := false } }.restart
      else .ok s
  | .idleElapsed => if s.idlenessTimer then s.close none else .ok s
  | .streamBroken code =>
      if s.connection.grpcStream.isSome then (s.blame code).close (some code) else .ok s
  | .responseRead parses =>
      match s.responses with
      | [] => .ok s
      | _ :: rest =>
          { if parses then s else s.blame .dataLoss with responses := rest }.onStreamRead parses
  | .errorRead =>
      match s.finishing, s.responses with
      | some code, [] => s.close (some code)
      | _, _ => .ok s
  | a => .ok (s.serve a)

/-- An action, unless an assertion has failed before. -/
def stepOrFault (s : Except WriteFault (Writes U M)) (a : Action U M) :
    Except WriteFault (Writes U M) := do
  (← s).step a

def run (user : U) (as : List (Action U M)) : Except WriteFault (Writes U M) :=
  Machine.run stepOrFault (.ok (installed user)) as

end Writes

end Firebase
