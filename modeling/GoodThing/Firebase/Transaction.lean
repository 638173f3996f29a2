/-
Transactions.

A transaction runs its block against documents it looks up one by one, remembers the
version of each, and collects the writes.  At the end all of them are sent at once, with the
versions as preconditions: on the first write of each document that was read, and on a write
that only verifies for each that was read and not written.  If the backend does not take
them, or cannot be reached, the whole block is run again on new documents, a limited number
of times.

`System` is any number of runners and the backend.  A lookup sees the documents as they are
when it is answered; a commit is taken or refused as a whole when it arrives, and the answer
to it may be lost.
-/
import GoodThing.Lib.Run
import GoodThing.Lib.Versioned

namespace Firebase

open Versioned Versioned.Store

/-- The code of a status that is not ok. -/
inductive Code where
  | cancelled
  | unknown
  | invalidArgument
  | deadlineExceeded
  | notFound
  | alreadyExists
  | permissionDenied
  | resourceExhausted
  | failedPrecondition
  | aborted
  | outOfRange
  | unimplemented
  | internal
  | unavailable
  | dataLoss
  | unauthenticated
  deriving DecidableEq

def isPermanentError : Code → Bool
  | .cancelled | .unknown | .deadlineExceeded | .resourceExhausted | .internal | .unavailable
  | .unauthenticated => false
  | _ => true

def isRetryableTransactionError (code : Code) : Bool :=
  code = .aborted || code = .alreadyExists || code = .failedPrecondition || !isPermanentError code

abbrev Status := Except Code Unit

/-- The block of a transaction; what it does next depends on what it has read. -/
inductive UpdateBlock (K V : Type) where
  | getDocument (key : K) (next : Except Code (Option V) → UpdateBlock K V)
  | setData (key : K) (value : Option V → V) (next : UpdateBlock K V)
  | updateData (key : K) (value : V → V) (next : UpdateBlock K V)
  | deleteDocument (key : K) (next : UpdateBlock K V)
  | «return»
  /-- The block sets an error; `user`: it is not one of Firestore. -/
  | fail (code : Code) (user : Bool)

structure Transaction (K V : Type) where
  /-- The version of each document read, `0` if it was not there. -/
  readVersions : List (K × Nat)
  mutations : List (Mutation K V)
  writtenDocs : List K
  lastWriteError : Option Code
  permanentError : Bool

variable {C K V : Type} [DecidableEq K]

namespace Transaction

def new : Transaction K V where
  readVersions := []
  mutations := []
  writtenDocs := []
  lastWriteError := none
  permanentError := false

def getVersion (t : Transaction K V) (key : K) : Option Nat :=
  (t.readVersions.find? fun x => x.1 = key).map Prod.snd

/-- Two reads of a document have to see the same version. -/
def recordVersion (t : Transaction K V) (key : K) (version : Nat) :
    Except Code (Transaction K V) :=
  match t.getVersion key with
  | some existingVersion => if version ≠ existingVersion then .error .aborted else .ok t
  | none => .ok { t with readVersions := t.readVersions ++ [(key, version)] }

def createPrecondition (t : Transaction K V) (key : K) : Precondition :=
  match t.getVersion key with
  | some version =>
      if key ∉ t.writtenDocs then
        if version = 0 then .exists false else .updateTime version
      else .none
  | none => .none

def createUpdatePrecondition (t : Transaction K V) (key : K) : Except Code Precondition :=
  match t.getVersion key with
  | some version =>
      if key ∉ t.writtenDocs then
        if version = 0 then .error .invalidArgument else .ok (.updateTime version)
      else .ok (.exists true)
  | none => .ok (.exists true)

def writeMutation (t : Transaction K V) (m : Mutation K V) : Transaction K V :=
  { t with mutations := t.mutations ++ [m], writtenDocs := t.writtenDocs ++ [m.key] }

def set (t : Transaction K V) (key : K) (value : Option V → V) : Transaction K V :=
  t.writeMutation ⟨key, t.createPrecondition key, .set value⟩

def update (t : Transaction K V) (key : K) (value : V → V) : Transaction K V :=
  match t.createUpdatePrecondition key with
  | .error code =>
      { t with lastWriteError := some code, writtenDocs := t.writtenDocs ++ [key] }
  | .ok precondition => t.writeMutation ⟨key, precondition, .update value⟩

def delete (t : Transaction K V) (key : K) : Transaction K V :=
  t.writeMutation ⟨key, t.createPrecondition key, .delete⟩

/-- The documents read and not written. -/
def unwritten (t : Transaction K V) : List K :=
  (t.readVersions.map Prod.fst).filter fun key => key ∉ t.mutations.map Mutation.key

/-- What a commit sends. -/
def commit (t : Transaction K V) : Except Code (List (Mutation K V)) :=
  match t.lastWriteError with
  | some code => .error code
  | none => .ok (t.mutations ++
      t.unwritten.map fun key => ⟨key, t.createPrecondition key, .verify⟩)

def markPermanentlyFailed (t : Transaction K V) : Transaction K V :=
  { t with permanentError := true }

end Transaction

/-- A block up to the next document it has to wait for, or to its end. -/
inductive Block (K V : Type) where
  | lookup (t : Transaction K V) (key : K) (next : Except Code (Option V) → UpdateBlock K V)
  | finished (t : Transaction K V) (status : Status)

/-- All reads come before all writes. -/
def runBlock : UpdateBlock K V → Transaction K V → Block K V
  | .getDocument key next, t =>
      if t.mutations.isEmpty then .lookup t key next
      else runBlock (next (.error .invalidArgument)) t
  | .setData key value next, t => runBlock next (t.set key value)
  | .updateData key value next, t => runBlock next (t.update key value)
  | .deleteDocument key next, t => runBlock next (t.delete key)
  | .return, t => .finished t (.ok ())
  | .fail code user, t => .finished (if user then t.markPermanentlyFailed else t) (.error code)

/-! ### The runner -/

inductive Phase (K V : Type) where
  /-- The next attempt is scheduled. -/
  | backoff
  | lookup (t : Transaction K V) (key : K) (next : Except Code (Option V) → UpdateBlock K V)
  | commit (t : Transaction K V) (mutations : List (Mutation K V))
  | finished

structure TransactionRunner (K V : Type) where
  updateBlock : UpdateBlock K V
  attemptsRemaining : Int
  phase : Phase K V
  /-- How often `Run` has been called. -/
  attempts : Nat
  /-- What the result callback has been called with. -/
  results : List Status

namespace TransactionRunner

def run (r : TransactionRunner K V) : TransactionRunner K V :=
  { r with
    attemptsRemaining := r.attemptsRemaining - 1, phase := .backoff, attempts := r.attempts + 1 }

/-- A transaction has been asked for. -/
def start (updateBlock : UpdateBlock K V) (maxAttempts : Nat) : TransactionRunner K V :=
  run { updateBlock, attemptsRemaining := maxAttempts, phase := .backoff, attempts := 0, results := [] }

def resultCallback (r : TransactionRunner K V) (status : Status) : TransactionRunner K V :=
  { r with phase := .finished, results := r.results ++ [status] }

def handleTransactionError (r : TransactionRunner K V) (t : Transaction K V) (code : Code) :
    TransactionRunner K V :=
  if 0 < r.attemptsRemaining ∧ isRetryableTransactionError code = true ∧
      t.permanentError = false then
    r.run
  else r.resultCallback (.error code)

def dispatchResult (r : TransactionRunner K V) (t : Transaction K V) :
    Status → TransactionRunner K V
  | .ok () => r.resultCallback (.ok ())
  | .error code => r.handleTransactionError t code

def continueCommit (r : TransactionRunner K V) (t : Transaction K V) :
    Status → TransactionRunner K V
  | .error code => r.handleTransactionError t code
  | .ok () =>
      match t.commit with
      | .error code => r.dispatchResult t (.error code)
      | .ok mutations => { r with phase := .commit t mutations }

/-- The block goes on until it has to wait. -/
def proceed (r : TransactionRunner K V) (t : Transaction K V) (rest : UpdateBlock K V) :
    TransactionRunner K V :=
  match runBlock rest t with
  | .lookup t key next => { r with phase := .lookup t key next }
  | .finished t status => r.continueCommit t status

end TransactionRunner

/-! ### Any number of runners -/

structure System (C K V : Type) where
  store : Store K V
  runners : C → TransactionRunner K V
  /-- Whose commits the backend has taken, oldest first. -/
  taken : List C
  /-- Those of them whose answer was lost. -/
  lost : List C

namespace System

inductive Action (C : Type) where
  | backoffElapsed (c : C)
  | lookupAnswered (c : C)
  | lookupFailed (c : C) (code : Code)
  | commitTaken (c : C)
  /-- The commit is taken, and the answer is lost on its way back. -/
  | commitTakenAnswerLost (c : C) (code : Code)
  | commitFailed (c : C) (code : Code)

variable [DecidableEq C]

def set (s : System C K V) (c : C) (r : TransactionRunner K V) : System C K V :=
  { s with runners := Function.update s.runners c r }

/-- The answer to a lookup reaches a transaction. -/
def answered (r : TransactionRunner K V) (t : Transaction K V) (key : K)
    (next : Except Code (Option V) → UpdateBlock K V) (cell : Cell V) : TransactionRunner K V :=
  match t.recordVersion key (time cell) with
  | .error code => r.proceed t (next (.error code))
  | .ok t => r.proceed t (next (.ok (Cell.value cell)))

def step (s : System C K V) (a : Action C) : System C K V :=
  match a with
  | .backoffElapsed c =>
      match (s.runners c).phase with
      | .backoff => s.set c ((s.runners c).proceed .new (s.runners c).updateBlock)
      | _ => s
  | .lookupAnswered c =>
      match (s.runners c).phase with
      | .lookup t key next => s.set c (answered (s.runners c) t key next (s.store.cells key))
      | _ => s
  | .lookupFailed c code =>
      match (s.runners c).phase with
      | .lookup t _ next => s.set c ((s.runners c).proceed t (next (.error code)))
      | _ => s
  | .commitTaken c =>
      match (s.runners c).phase with
      | .commit t mutations =>
          match s.store.commit mutations with
          | some store =>
              { s.set c ((s.runners c).dispatchResult t (.ok ())) with
                store, taken := s.taken ++ [c] }
          | none => s
      | _ => s
  | .commitTakenAnswerLost c code =>
      match (s.runners c).phase with
      | .commit t mutations =>
          match s.store.commit mutations with
          | some store =>
              { s.set c ((s.runners c).dispatchResult t (.error code)) with
                store, taken := s.taken ++ [c], lost := s.lost ++ [c] }
          | none => s
      | _ => s
  | .commitFailed c code =>
      match (s.runners c).phase with
      | .commit t _ => s.set c ((s.runners c).dispatchResult t (.error code))
      | _ => s

/-- Every client has asked for its transaction. -/
def start (store : Store K V) (updateBlock : C → UpdateBlock K V) (maxAttempts : C → Nat) :
    System C K V where
  store := store
  runners c := .start (updateBlock c) (maxAttempts c)
  taken := []
  lost := []

end System

end Firebase
