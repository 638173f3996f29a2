/-
No write is lost, and none overtakes another.

The pipeline is always the front of the current user's queue, and of the pipeline the
responses on their way are the first part and the requests the backend has not taken the
rest.  That is why a response may be taken for the first batch of the pipeline without saying
so, and why an error may be.

`Wired` is how the stream stands and `Full` how the pipeline does; what becomes of the writes
is left to the ledger, which the stream changes only by the answers it brings and by what it
leaves behind when it ends.  `Staged` is what the stream waits for in each of its states: what
comes for a stream that has been closed in the meantime is told by its close count.
-/
import GoodThing.Proofs.Ledger

namespace Firebase

variable {U M : Type} [LinearOrder U]

namespace Writes

variable {s : Writes U M}

/-! ### What the functions of the stream and the pipeline come to -/

/-- Some batches more in the pipeline, sent if the stream is there for it. -/
def added (s : Writes U M) (batches : List (MutationBatch U M)) : Writes U M :=
  { s with
    writePipeline := s.writePipeline ++ batches
    requests := if s.isOpen && s.handshakeComplete then
      s.requests ++ batches.map .mutations else s.requests
    idlenessTimer := s.idlenessTimer && !(s.isOpen && s.handshakeComplete && !batches.isEmpty) }

/-- The stream is started if it is needed. -/
def started (s : Writes U M) : Writes U M :=
  { s with
    state := if s.shouldStartWriteStream then
      (if s.state = .error then .backoff else .starting) else s.state
    connection := if s.shouldStartWriteStream then
      (if s.state = .error then { s.connection with backoffTimer := true }
        else s.connection.requestCredentials) else s.connection }

/-- A request goes over the stream. -/
def sent (s : Writes U M) (request : WriteRequest U M) : Writes U M :=
  { s with idlenessTimer := false, requests := s.requests ++ [request] }

/-- The batches there is room for. -/
def refill (s : Writes U M) : List (MutationBatch U M) :=
  (s.queue.drop s.writePipeline.length).take (kMaxPendingWrites - s.writePipeline.length)

/-- What `FillWritePipeline` comes to. -/
def filled (s : Writes U M) : Writes U M :=
  started (if s.queue.isEmpty then (s.added s.refill).markIdle else s.added s.refill)

theorem added_nil (s : Writes U M) : s.added [] = s := by
  simp [added]

theorem added_added (s : Writes U M) (xs ys : List (MutationBatch U M)) :
    (s.added xs).added ys = s.added (xs ++ ys) := by
  unfold added isOpen
  cases s.handshakeComplete with
  | false => simp
  | true =>
      cases s.state with
      | «open» => cases xs <;> cases ys <;> simp
      | _ => simp

theorem writeMutations_eq (hopen : s.isOpen = true) (hhandshake : s.handshakeComplete = true)
    (batch : MutationBatch U M) : s.writeMutations batch = .ok (s.sent (.mutations batch)) := by
  simp [writeMutations, write, sent, hopen, hhandshake]

theorem addToWritePipeline_eq (h : s.canAddToWritePipeline = true) (batch : MutationBatch U M) :
    s.addToWritePipeline batch = .ok (s.added [batch]) := by
  unfold addToWritePipeline added
  rw [h]
  by_cases hready : (s.isOpen && s.handshakeComplete) = true
  · obtain ⟨hopen, hhandshake⟩ := Bool.and_eq_true_iff.mp hready
    simp only [hready]
    show (if (s.isOpen && s.handshakeComplete) = true then _ else _) = _
    rw [if_pos hready]
    refine (writeMutations_eq (s := { s with writePipeline := s.writePipeline ++ [batch] })
      hopen hhandshake batch).trans ?_
    simp [sent]
  · simp only [hready]
    show (if (s.isOpen && s.handshakeComplete) = true then _ else _) = _
    rw [if_neg hready]
    simp

theorem startIfNeeded_eq (s : Writes U M) : s.startIfNeeded = .ok s.started := by
  unfold startIfNeeded startWriteStream started
  by_cases h : s.shouldStartWriteStream = true
  · simp only [if_pos h]
    have hstopped : s.isStarted = false := by
      unfold shouldStartWriteStream at h
      simp only [Bool.and_eq_true, Bool.not_eq_true'] at h
      exact h.1.2
    unfold start
    cases hstate : s.state with
    | initial => simp
    | error => simp [backoffAndTryRestarting, hstate]
    | starting => simp [isStarted, hstate] at hstopped
    | backoff => simp [isStarted, hstate] at hstopped
    | «open» => simp [isStarted, isOpen, hstate] at hstopped
  · simp only [if_neg h]

theorem fillLoop_eq : ∀ (places : Nat) (s : Writes U M) (rest : List (MutationBatch U M)),
    s.isNetworkEnabled = true → (∀ b ∈ s.queue, 0 < b.batchId) →
    s.queue = s.writePipeline ++ rest → places + s.writePipeline.length = kMaxPendingWrites →
    fillLoop places s.lastBatchId s =
      .ok (if s.queue.isEmpty then (s.added (rest.take places)).markIdle
        else s.added (rest.take places)) := by
  intro places
  induction places with
  | zero =>
      intro s rest _ _ hqueue hplaces
      have hne : s.queue.isEmpty = false := by
        rw [hqueue]
        cases hp : s.writePipeline with
        | nil =>
            rw [hp] at hplaces
            cases hplaces
        | cons b bs => rfl
      rw [hne, List.take_zero, added_nil]
      rfl
  | succ places ih =>
      intro s rest henabled hpos hqueue hplaces
      have hcan : s.canAddToWritePipeline = true := by
        unfold canAddToWritePipeline canUseNetwork
        rw [henabled]
        exact decide_eq_true (by omega)
      have hnext : s.table.nextMutationBatchAfterBatchId s.currentUser s.lastBatchId = rest.head? :=
        MutationTable.next_eq hqueue hpos
      unfold fillLoop
      rw [if_pos hcan, hnext]
      cases rest with
      | nil =>
          rw [List.append_nil] at hqueue
          rw [List.take_nil, added_nil, hqueue]
          rfl
      | cons batch rest =>
          have hne : s.queue.isEmpty = false := by
            rw [hqueue]
            simp
          show (s.addToWritePipeline batch >>= fun t => fillLoop places batch.batchId t) = _
          rw [addToWritePipeline_eq hcan]
          have hlast : (s.added [batch]).lastBatchId = batch.batchId := by
            simp [lastBatchId, added]
          have hloop := ih (s.added [batch]) rest henabled hpos
            (by
              show s.queue = s.writePipeline ++ [batch] ++ rest
              rw [hqueue, List.append_assoc]
              rfl)
            (by
              show places + (s.writePipeline ++ [batch]).length = kMaxPendingWrites
              rw [List.length_append, List.length_singleton]
              omega)
          rw [hlast] at hloop
          refine hloop.trans ?_
          show Except.ok (if s.queue.isEmpty = true then _ else _) = _
          rw [hne, added_added]
          rfl

/-- `FillWritePipeline`, when the pipeline is the front of the queue. -/
theorem fillWritePipeline_eq (henabled : s.isNetworkEnabled = true)
    (hpos : ∀ b ∈ s.queue, 0 < b.batchId) (hfront : s.writePipeline <+: s.queue)
    (hlength : s.writePipeline.length ≤ kMaxPendingWrites) : s.fillWritePipeline = .ok s.filled := by
  have hqueue : s.queue = s.writePipeline ++ s.queue.drop s.writePipeline.length := by
    obtain ⟨rest, hrest⟩ := hfront
    rw [← hrest, List.drop_left]
  have hloop := fillLoop_eq (kMaxPendingWrites - s.writePipeline.length) s _ henabled hpos hqueue
    (Nat.sub_add_cancel hlength)
  unfold fillWritePipeline
  rw [hloop]
  exact startIfNeeded_eq _

theorem fillLoop_disabled (h : s.isNetworkEnabled = false) (places : Nat) (id : Int) :
    fillLoop places id s = .ok s := by
  cases places with
  | zero => rfl
  | succ places =>
      unfold fillLoop
      rw [if_neg (by simp [canAddToWritePipeline, canUseNetwork, h])]

/-- And when the network is disabled. -/
theorem fillWritePipeline_disabled (h : s.isNetworkEnabled = false) :
    s.fillWritePipeline = .ok s := by
  unfold fillWritePipeline
  rw [fillLoop_disabled h]
  show s.startIfNeeded = .ok s
  unfold startIfNeeded
  rw [if_neg (by simp [shouldStartWriteStream, canUseNetwork, h])]

theorem foldlM_writeMutations : ∀ (batches : List (MutationBatch U M)) (s : Writes U M),
    s.isOpen = true → s.handshakeComplete = true →
    batches.foldlM (fun s batch => s.writeMutations batch) s = .ok { s with
      requests := s.requests ++ batches.map .mutations
      idlenessTimer := s.idlenessTimer && batches.isEmpty } := by
  intro batches
  induction batches with
  | nil =>
      intro s _ _
      show Except.ok s = _
      simp
  | cons batch rest ih =>
      intro s hopen hhandshake
      show (s.writeMutations batch >>= fun t =>
        rest.foldlM (fun s batch => s.writeMutations batch) t) = _
      rw [writeMutations_eq hopen hhandshake]
      refine (ih (s.sent (.mutations batch)) hopen hhandshake).trans ?_
      simp [sent]

/-- The batch leaves the queue, and the caller who waits for it is told. -/
def settle (s : Writes U M) (batch : MutationBatch U M) (status : Status) : Writes U M :=
  { s with
    table := s.table.erase (s.currentUser, batch.batchId)
    answered := Function.update s.answered s.currentUser
      (s.answered s.currentUser ++ [(batch, status)])
    mutationCallbacks := s.mutationCallbacks.filter fun x => x.1 ≠ (s.currentUser, batch.batchId)
    notified := s.notified ++
      (s.mutationCallbacks.lookup (s.currentUser, batch.batchId)).toList.map fun serial =>
        (s.currentUser, serial, status) }

theorem notifyUser_eq (s : Writes U M) (batchId : Int) (status : Status) :
    s.notifyUser batchId status = { s with
      mutationCallbacks := s.mutationCallbacks.filter fun x => x.1 ≠ (s.currentUser, batchId)
      notified := s.notified ++
        (s.mutationCallbacks.lookup (s.currentUser, batchId)).toList.map fun serial =>
          (s.currentUser, serial, status) } := by
  unfold notifyUser
  cases hlookup : s.mutationCallbacks.lookup (s.currentUser, batchId) with
  | some serial => rfl
  | none =>
      have hfilter : s.mutationCallbacks.filter (fun x => x.1 ≠ (s.currentUser, batchId)) =
          s.mutationCallbacks := by
        rw [List.filter_eq_self]
        intro x hx
        have hne := List.lookup_eq_none_iff.mp hlookup x hx
        exact decide_eq_true (Ne.symm (bne_iff_ne.mp hne))
      rw [hfilter]
      simp

theorem handleSuccessfulWrite_eq {batch : MutationBatch U M}
    (h : s.table.contains (s.currentUser, batch.batchId) = true) :
    s.handleSuccessfulWrite batch = .ok (s.settle batch (.ok ())) := by
  unfold handleSuccessfulWrite
  rw [notifyUser_eq]
  unfold removeMutationBatch
  exact if_pos h

theorem onWriteStreamMutationResult_eq {batch : MutationBatch U M}
    {rest : List (MutationBatch U M)} (hpipeline : s.writePipeline = batch :: rest)
    (h : s.table.contains (s.currentUser, batch.batchId) = true) :
    s.onWriteStreamMutationResult =
      ({ s with writePipeline := rest }.settle batch (.ok ())).fillWritePipeline := by
  unfold onWriteStreamMutationResult
  rw [hpipeline]
  show (handleSuccessfulWrite { s with writePipeline := rest } batch >>= fillWritePipeline) = _
  rw [handleSuccessfulWrite_eq (s := { s with writePipeline := rest }) h]
  rfl

theorem queue_settle {batch : MutationBatch U M} {rest : List (MutationBatch U M)}
    (h : s.queue = batch :: rest) (status : Status) : (s.settle batch status).queue = rest :=
  MutationTable.queue_erase_head h

/-- The first batch of the queue is found under its key. -/
theorem find?_of_queue {batch : MutationBatch U M} {rest : List (MutationBatch U M)}
    (h : s.queue = batch :: rest) : s.table.find? (s.currentUser, batch.batchId) = some batch := by
  have hmem : batch ∈ s.table.queue s.currentUser := by
    show batch ∈ s.queue
    rw [h]
    exact List.mem_cons_self
  obtain ⟨htable, huser⟩ := MutationTable.mem_queue.mp hmem
  exact Keyed.Set.find?_eq_some_iff.mpr ⟨htable, Prod.ext huser rfl⟩

theorem handleRejectedWrite_eq {batch : MutationBatch U M}
    (h : s.table.find? (s.currentUser, batch.batchId) = some batch) (code : Code) :
    s.handleRejectedWrite batch.batchId code = .ok (s.settle batch (.error code)) := by
  have hcontains : s.table.contains (s.currentUser, batch.batchId) = true := by
    unfold Keyed.Set.contains
    rw [h]
    rfl
  unfold handleRejectedWrite
  rw [h]
  show (s.removeMutationBatch batch (.error code) >>= _) = _
  unfold removeMutationBatch
  rw [if_pos hcontains]
  exact congrArg Except.ok (notifyUser_eq _ _ _)

/-! ### How the stream stands -/

def ledger (s : Writes U M) : Ledger U M where
  table := s.table
  nextBatchId := s.nextBatchId
  currentUser := s.currentUser
  mutationCallbacks := s.mutationCallbacks
  abandoned := s.abandoned
  committed := s.committed
  refused := s.refused
  blamed := s.blamed
  written := s.written
  answered := s.answered
  notified := s.notified

/-- What the stream waits for in each of its states. -/
structure Staged (state : StreamState) (c : Connection) : Prop where
  counted : ∀ n ∈ c.credentialRequests, n ≤ c.closeCount
  once : c.credentialRequests.Nodup
  asking : c.closeCount ∈ c.credentialRequests → state = .starting ∧ c.grpcStream = none
  connecting : c.grpcStream = some false → state = .starting
  connected : c.grpcStream = some true → state = .open
  backoff : c.backoffTimer = true → state = .backoff

namespace Staged

variable {state : StreamState} {c : Connection}

theorem unused : Staged .initial .unused := by
  constructor <;> simp [Connection.unused]

/-- Whatever has been asked for before the stream is closed comes too late. -/
theorem closed (h : Staged state c) (state' : StreamState) : Staged state' c.closed where
  counted n hn := Nat.le_succ_of_le (h.counted n hn)
  once := h.once
  asking hmem := absurd (h.counted _ hmem) (Nat.not_succ_le_self _)
  connecting hstream := by cases hstream
  connected hstream := by cases hstream
  backoff htimer := by cases htimer

/-- Credentials are asked for once at each close count. -/
theorem not_asking (h : Staged state c) (hstate : state ≠ .starting) :
    c.closeCount ∉ c.credentialRequests := fun hmem => hstate (h.asking hmem).1

theorem no_stream (h : Staged state c) (hstate : state ≠ .starting) (hopen : state ≠ .open) :
    c.grpcStream = none := by
  cases hstream : c.grpcStream with
  | none => rfl
  | some started =>
      cases started with
      | false => exact absurd (h.connecting hstream) hstate
      | true => exact absurd (h.connected hstream) hopen

theorem requestCredentials (h : Staged .initial c) : Staged .starting c.requestCredentials := by
  have hstream : c.grpcStream = none := h.no_stream (by simp) (by simp)
  refine ⟨?_, ?_, fun _ => ⟨rfl, hstream⟩, fun _ => rfl, ?_, ?_⟩
  · intro n hn
    rcases List.mem_append.mp hn with hn | hn
    · exact h.counted n hn
    · exact le_of_eq (List.mem_singleton.mp hn)
  · show (c.credentialRequests ++ [c.closeCount]).Nodup
    rw [List.nodup_append]
    refine ⟨h.once, List.nodup_singleton _, ?_⟩
    intro n hn m hm heq
    rw [heq, List.mem_singleton.mp hm] at hn
    exact h.not_asking (by simp) hn
  · intro hno
    rw [show c.requestCredentials.grpcStream = none from hstream] at hno
    cases hno
  · intro htimer
    cases h.backoff htimer

theorem backedOff (h : Staged .error c) : Staged .backoff { c with backoffTimer := true } where
  counted := h.counted
  once := h.once
  asking hmem := absurd hmem (h.not_asking (by simp))
  connecting hstream := by cases h.connecting hstream
  connected hstream := by cases h.connected hstream
  backoff _ := rfl

/-- The error is forgotten. -/
theorem inhibited (h : Staged .error c) : Staged .initial c where
  counted := h.counted
  once := h.once
  asking hmem := absurd hmem (h.not_asking (by simp))
  connecting hstream := by cases h.connecting hstream
  connected hstream := by cases h.connected hstream
  backoff htimer := by cases h.backoff htimer

/-- The delay is over. -/
theorem elapsed (h : Staged .backoff c) : Staged .initial { c with backoffTimer := false } where
  counted := h.counted
  once := h.once
  asking hmem := absurd hmem (h.not_asking (by simp))
  connecting hstream := by cases h.connecting hstream
  connected hstream := by cases h.connected hstream
  backoff htimer := by cases htimer

theorem received (h : Staged state c) (request : Nat) :
    Staged state { c with credentialRequests := c.credentialRequests.erase request } where
  counted n hn := h.counted n (List.mem_of_mem_erase hn)
  once := h.once.erase request
  asking hmem := h.asking (List.mem_of_mem_erase hmem)
  connecting := h.connecting
  connected := h.connected
  backoff := h.backoff

theorem created (h : Staged .starting c) (hnone : c.closeCount ∉ c.credentialRequests) :
    Staged .starting { c with grpcStream := some false } where
  counted := h.counted
  once := h.once
  asking hmem := absurd hmem hnone
  connecting _ := rfl
  connected hstream := by cases hstream
  backoff := h.backoff

theorem opened (h : Staged state c) (hstream : c.grpcStream = some false) :
    Staged .open { c with grpcStream := some true } where
  counted := h.counted
  once := h.once
  asking hmem := by
    rw [(h.asking hmem).2] at hstream
    cases hstream
  connecting hno := by cases hno
  connected _ := rfl
  backoff htimer := by
    have hstate := h.connecting hstream
    rw [h.backoff htimer] at hstate
    cases hstate

end Staged

structure Wired (s : Writes U M) : Prop where
  staged : Staged s.state s.connection
  closed : s.state ≠ .open → s.requests = [] ∧ s.responses = [] ∧ s.finishing = none
  /-- Until the handshake is answered, nothing else is sent. -/
  greeting : s.state = .open → s.handshakeComplete = false →
    s.writePipeline ≠ [] ∧ s.finishing = none ∧
      (s.requests = [.handshake] ∧ s.responses = [] ∨
        s.requests = [] ∧ s.responses = [.handshake])
  /-- The pipeline is what has been committed, and what has not been taken from the stream. -/
  flight : s.state = .open → s.handshakeComplete = true → ∃ done left,
    s.responses = done.map .result ∧ s.requests = left.map .mutations ∧
      s.writePipeline = done ++ left ∧ (∀ b ∈ done, b ∈ s.committed) ∧
      ∀ code, s.finishing = some code → isPermanentWriteError code = true ∧
        ∃ b rest, left = b :: rest ∧ (b, code) ∈ s.refused
  /-- Only a stream that has nothing to do is stopped. -/
  idle : s.idlenessTimer = true →
    s.state = .open ∧ s.handshakeComplete = true ∧ s.writePipeline = []
  busy : s.state = .starting ∨ s.state = .backoff → s.writePipeline ≠ []

/-- The pipeline is as full as it can be, and the stream is there if it is needed. -/
structure Full (s : Writes U M) : Prop where
  pipeline : s.writePipeline = if s.isNetworkEnabled then s.queue.take kMaxPendingWrites else []
  stopped : s.isNetworkEnabled = false → s.isStarted = false
  started : s.writePipeline ≠ [] → s.isStarted = true

/-- Between two actions. -/
structure Sound (s : Writes U M) : Prop where
  tidy : s.ledger.Tidy
  wired : Wired s
  full : Full s
  handshake : s.handshakeComplete = true → s.state = .open

theorem state_of_stopped (h : s.isStarted = false) : s.state = .initial ∨ s.state = .error := by
  cases hstate : s.state with
  | initial => exact Or.inl rfl
  | error => exact Or.inr rfl
  | starting => simp [isStarted, hstate] at h
  | backoff => simp [isStarted, hstate] at h
  | «open» => simp [isStarted, isOpen, hstate] at h

namespace Wired

theorem added (h : Wired s) (batches : List (MutationBatch U M)) : Wired (s.added batches) where
  staged := h.staged
  closed := by
    intro hstate
    have hready : (s.isOpen && s.handshakeComplete) = false := by
      have hstate' : s.state ≠ .open := hstate
      simp [isOpen, hstate']
    have hclosed := h.closed hstate
    unfold Writes.added
    rw [hready]
    exact hclosed
  greeting := by
    intro hstate hhandshake
    have hready : (s.isOpen && s.handshakeComplete) = false := by
      have hhandshake' : s.handshakeComplete = false := hhandshake
      rw [hhandshake', Bool.and_false]
    obtain ⟨hne, hrest⟩ := h.greeting hstate hhandshake
    unfold Writes.added
    rw [hready]
    exact ⟨by simp [hne], hrest⟩
  flight := by
    intro hstate hhandshake
    have hready : (s.isOpen && s.handshakeComplete) = true := by
      have hstate' : s.state = .open := hstate
      have hhandshake' : s.handshakeComplete = true := hhandshake
      simp [isOpen, hstate', hhandshake']
    obtain ⟨done, left, hresponses, hrequests, hpipeline, hdone, hfinishing⟩ :=
      h.flight hstate hhandshake
    refine ⟨done, left ++ batches, hresponses, ?_, ?_, hdone, ?_⟩
    · unfold Writes.added
      rw [hready, if_pos rfl, hrequests, List.map_append]
    · show s.writePipeline ++ batches = done ++ (left ++ batches)
      rw [hpipeline, List.append_assoc]
    · intro code hcode
      obtain ⟨hpermanent, b, rest, rfl, hb⟩ := hfinishing code hcode
      exact ⟨hpermanent, b, rest ++ batches, rfl, hb⟩
  idle := by
    intro hidle
    have hidle' : (s.idlenessTimer &&
        !(s.isOpen && s.handshakeComplete && !batches.isEmpty)) = true := hidle
    rw [Bool.and_eq_true, Bool.not_eq_true'] at hidle'
    obtain ⟨hstate, hhandshake, hpipeline⟩ := h.idle hidle'.1
    have hnone : batches = [] := by
      have hempty := hidle'.2
      rw [hhandshake, show s.isOpen = true from decide_eq_true hstate] at hempty
      simpa using hempty
    refine ⟨hstate, hhandshake, ?_⟩
    show s.writePipeline ++ batches = []
    rw [hpipeline, hnone]
    rfl
  busy := by
    intro hstate
    have hne := h.busy hstate
    show s.writePipeline ++ batches ≠ []
    simp [hne]

theorem markIdle (h : Wired s) (hpipeline : s.writePipeline = []) : Wired s.markIdle := by
  unfold Writes.markIdle
  by_cases hopen : s.isOpen = true
  · rw [if_pos hopen]
    have hstate : s.state = .open := of_decide_eq_true hopen
    have hhandshake : s.handshakeComplete = true := by
      rw [← Bool.not_eq_false]
      intro hno
      exact (h.greeting hstate hno).1 hpipeline
    exact ⟨h.staged, h.closed, h.greeting, h.flight,
      fun _ => ⟨hstate, hhandshake, hpipeline⟩, h.busy⟩
  · rw [if_neg hopen]
    exact h

theorem started (h : Wired s) : Wired s.started := by
  unfold Writes.started
  by_cases hshould : s.shouldStartWriteStream = true
  · simp only [if_pos hshould]
    unfold shouldStartWriteStream at hshould
    simp only [Bool.and_eq_true, Bool.not_eq_true', List.isEmpty_eq_false_iff] at hshould
    have hstopped : s.state ≠ .open := by
      intro hstate
      have hstarted := hshould.1.2
      simp [isStarted, isOpen, hstate] at hstarted
    have hstate : (if s.state = .error then StreamState.backoff else .starting) ≠ .open := by
      split
      · simp
      · simp
    refine ⟨?_, fun _ => h.closed hstopped, fun ho => absurd ho hstate,
      fun ho => absurd ho hstate, fun hidle => absurd (h.idle hidle).1 hstopped,
      fun _ => hshould.2⟩
    have hstaged := h.staged
    rcases state_of_stopped hshould.1.2 with hinitial | herror
    · rw [hinitial] at hstaged
      simpa [hinitial] using hstaged.requestCredentials
    · rw [herror] at hstaged
      simpa [herror] using hstaged.backedOff
  · simp only [if_neg hshould]
    exact h

end Wired

theorem started_eq_self (h : s.shouldStartWriteStream = false) : s.started = s := by
  simp [started, h]

theorem started_of_isStarted (h : s.isStarted = true) : s.started = s :=
  started_eq_self (by simp [shouldStartWriteStream, h])

theorem isStarted_started (henabled : s.isNetworkEnabled = true) (hpipeline : s.writePipeline ≠ []) :
    s.started.isStarted = true := by
  by_cases hstarted : s.isStarted = true
  · rw [started_of_isStarted hstarted]
    exact hstarted
  · have hshould : s.shouldStartWriteStream = true := by
      simp [shouldStartWriteStream, canUseNetwork, henabled, hstarted, hpipeline]
    unfold started isStarted
    simp only [if_pos hshould]
    split
    · simp
    · simp

theorem state_started_eq_open : s.started.state = .open ↔ s.state = .open := by
  by_cases hstarted : s.isStarted = true
  · rw [started_of_isStarted hstarted]
  · have hstate : s.state ≠ .open := by
      intro hopen
      simp [isStarted, isOpen, hopen] at hstarted
    refine ⟨fun hopen => absurd hopen ?_, fun hopen => absurd hopen hstate⟩
    unfold started
    split
    · split
      · simp
      · simp
    · exact hstate

theorem markIdle_eq (s : Writes U M) :
    s.markIdle = { s with idlenessTimer := s.isOpen || s.idlenessTimer } := by
  unfold markIdle
  by_cases hopen : s.isOpen = true
  · rw [if_pos hopen, hopen]
    rfl
  · rw [if_neg hopen, Bool.eq_false_iff.mpr hopen]
    rfl

/-- The pipeline is filled up. -/
theorem fill_ok (htidy : s.ledger.Tidy) (hwired : Wired s) (henabled : s.isNetworkEnabled = true)
    (hfront : s.writePipeline <+: s.queue)
    (hlength : s.writePipeline.length ≤ kMaxPendingWrites) :
    ∃ t, s.fillWritePipeline = .ok t ∧ t.ledger = s.ledger ∧ Wired t ∧ Full t ∧
      t.handshakeComplete = s.handshakeComplete ∧ (t.state = .open ↔ s.state = .open) := by
  have hpos : ∀ b ∈ s.queue, 0 < b.batchId :=
    fun b hb => htidy.positive b (MutationTable.mem_queue.mp hb).1
  refine ⟨s.filled, fillWritePipeline_eq henabled hpos hfront hlength, ?_⟩
  -- The state before the stream is started, whether or not it is marked idle.
  obtain ⟨mid, hfilled, hmid, hwiredMid, hpipeline⟩ : ∃ mid, s.filled = started mid ∧
      (∃ idlenessTimer requests writePipeline,
        mid = { s with idlenessTimer, requests, writePipeline }) ∧ Wired mid ∧
      mid.writePipeline = s.queue.take kMaxPendingWrites := by
    have htake : (s.added s.refill).writePipeline = s.queue.take kMaxPendingWrites := by
      show s.writePipeline ++ s.refill = _
      obtain ⟨rest, hrest⟩ := hfront
      unfold refill
      rw [← hrest, List.drop_left, List.take_append, List.take_of_length_le hlength]
    unfold filled
    by_cases hempty : s.queue.isEmpty = true
    · rw [if_pos hempty]
      refine ⟨(s.added s.refill).markIdle, rfl, ⟨_, _, _, markIdle_eq _⟩,
        (hwired.added s.refill).markIdle ?_, ?_⟩
      · rw [htake, List.isEmpty_iff.mp hempty]
        rfl
      · rw [markIdle_eq]
        exact htake
    · rw [if_neg hempty]
      exact ⟨s.added s.refill, rfl, ⟨_, _, _, rfl⟩, hwired.added s.refill, htake⟩
  rw [hfilled]
  obtain ⟨idlenessTimer, requests, writePipeline, rfl⟩ := hmid
  refine ⟨rfl, hwiredMid.started, ⟨?_, ?_, ?_⟩, rfl, ?_⟩
  · show writePipeline = if s.isNetworkEnabled then s.queue.take kMaxPendingWrites else []
    rw [if_pos henabled]
    exact hpipeline
  · intro hdisabled
    have hfalse : s.isNetworkEnabled = false := hdisabled
    rw [henabled] at hfalse
    cases hfalse
  · intro hne
    exact isStarted_started henabled hne
  · exact state_started_eq_open

/-- A stream is started only while the network is enabled. -/
theorem Sound.enabled (h : Sound s) (hstarted : s.isStarted = true) :
    s.isNetworkEnabled = true := by
  rw [← Bool.not_eq_false]
  intro hdisabled
  rw [h.full.stopped hdisabled] at hstarted
  cases hstarted

/-- Whatever the backend has not taken from the stream is in its turn. -/
theorem Sound.follows (h : Sound s) :
    s.ledger.Follows (s.requests.filterMap WriteRequest.batch?) := by
  by_cases hstate : s.state = .open
  · cases hhandshake : s.handshakeComplete with
    | false =>
        obtain ⟨-, -, ⟨hrequests, -⟩ | ⟨hrequests, -⟩⟩ := h.wired.greeting hstate hhandshake
        · rw [hrequests]
          exact Ledger.follows_nil _
        · rw [hrequests]
          exact Ledger.follows_nil _
    | true =>
        obtain ⟨done, left, -, hrequests, hpipeline, hdone, -⟩ := h.wired.flight hstate hhandshake
        have henabled := h.enabled (by simp [isStarted, isOpen, hstate])
        have hqueue : s.table.queue s.currentUser =
            done ++ left ++ s.queue.drop kMaxPendingWrites := by
          have hfull := h.full.pipeline
          rw [if_pos henabled, hpipeline] at hfull
          rw [hfull]
          exact (List.take_append_drop _ _).symm
        have hbatches : s.requests.filterMap WriteRequest.batch? = left := by
          rw [hrequests, List.filterMap_map]
          exact List.filterMap_some
        rw [hbatches]
        exact h.tidy.follows hqueue hdone
  · rw [(h.wired.closed hstate).1]
    exact Ledger.follows_nil _

/-! ### One action -/

theorem fill_sound (htidy : s.ledger.Tidy) (hwired : Wired s) (henabled : s.isNetworkEnabled = true)
    (hfront : s.writePipeline <+: s.queue)
    (hlength : s.writePipeline.length ≤ kMaxPendingWrites)
    (hhandshake : s.handshakeComplete = true → s.state = .open) :
    ∃ t, s.fillWritePipeline = .ok t ∧ Sound t := by
  obtain ⟨t, ht, hledger, hwiredT, hfull, hcomplete, hstate⟩ :=
    fill_ok htidy hwired henabled hfront hlength
  refine ⟨t, ht, hledger ▸ htidy, hwiredT, hfull, ?_⟩
  intro hshake
  exact hstate.mpr (hhandshake (hcomplete ▸ hshake))

theorem Sound.front (h : Sound s) :
    s.writePipeline <+: s.queue ∧ s.writePipeline.length ≤ kMaxPendingWrites := by
  rw [h.full.pipeline]
  split
  · exact ⟨List.take_prefix _ _, List.length_take_le _ _⟩
  · exact ⟨List.nil_prefix, Nat.zero_le _⟩

theorem write_ok (h : Sound s) (mutations : M) :
    ∃ t, s.writeLocally mutations = .ok t ∧ Sound t := by
  have htidy := h.tidy.written mutations
    (if (s.mutationCallbacks.lookup (s.currentUser, s.nextBatchId)).isSome
      then s.mutationCallbacks
      else s.mutationCallbacks ++
        [((s.currentUser, s.nextBatchId), (s.written s.currentUser).length)])
    (by
      intro x hx
      split at hx
      · exact Or.inl hx
      · exact (List.mem_append.mp hx).imp id List.mem_singleton.mp)
  unfold writeLocally
  have hqueue := MutationTable.queue_insert_self s.table
    ⟨s.currentUser, s.nextBatchId, mutations, (s.written s.currentUser).length⟩ h.tidy.next
  rcases Bool.eq_false_or_eq_true s.isNetworkEnabled with henabled | hdisabled
  · refine fill_sound htidy ⟨h.wired.staged, h.wired.closed, h.wired.greeting,
      h.wired.flight, h.wired.idle, h.wired.busy⟩ henabled ?_ h.front.2 h.handshake
    show s.writePipeline <+: MutationTable.queue _ s.currentUser
    rw [hqueue]
    exact h.front.1.trans (List.prefix_append _ _)
  · refine ⟨_, fillWritePipeline_disabled hdisabled, htidy, ⟨h.wired.staged, h.wired.closed,
      h.wired.greeting, h.wired.flight, h.wired.idle, h.wired.busy⟩,
      ⟨?_, h.full.stopped, h.full.started⟩, h.handshake⟩
    have hpipeline := h.full.pipeline
    rw [hdisabled] at hpipeline
    show s.writePipeline = if s.isNetworkEnabled then _ else []
    rw [hdisabled]
    exact hpipeline

/-- A response to a batch: it is for the first one of the pipeline. -/
theorem result_ok (h : Sound s) (hstate : s.state = .open) (hhandshake : s.handshakeComplete = true)
    {response : WriteResponse U M} {rest : List (WriteResponse U M)}
    (hresponses : s.responses = response :: rest) :
    ∃ t, { s with responses := rest }.onWriteStreamMutationResult = .ok t ∧ Sound t := by
  obtain ⟨done, left, hdone, hleft, hpipeline, hcommitted, hfinishing⟩ :=
    h.wired.flight hstate hhandshake
  rw [hresponses] at hdone
  cases done with
  | nil => cases hdone
  | cons batch done =>
      have hrest : rest = done.map .result := (List.cons.inj hdone).2
      have henabled := h.enabled (by simp [isStarted, isOpen, hstate])
      obtain ⟨more, hmore⟩ := h.front.1
      rw [hpipeline] at hmore
      have hqueue : s.queue = batch :: (done ++ left ++ more) := hmore.symm
      have hcontains : s.table.contains (s.currentUser, batch.batchId) = true := by
        unfold Keyed.Set.contains
        rw [find?_of_queue hqueue]
        rfl
      rw [onWriteStreamMutationResult_eq (s := { s with responses := rest }) hpipeline hcontains]
      have htidy := h.tidy.answered hqueue (.ok ())
        (fun _ => hcommitted batch List.mem_cons_self) (fun code hcode => by cases hcode)
      refine fill_sound htidy ⟨h.wired.staged, ?_, ?_, ?_, ?_, ?_⟩ henabled ?_ ?_ fun _ => hstate
      · intro hno
        exact absurd hstate hno
      · intro _ hno
        have hno' : s.handshakeComplete = false := hno
        rw [hhandshake] at hno'
        cases hno'
      · intro _ _
        exact ⟨done, left, hrest, hleft, rfl, fun b hb => hcommitted b (List.mem_cons_of_mem _ hb),
          hfinishing⟩
      · intro hidle
        have hnone := (h.wired.idle hidle).2.2
        rw [hpipeline] at hnone
        cases hnone
      · rintro (hno | hno)
        · exact absurd (hstate.symm.trans hno) (by simp)
        · exact absurd (hstate.symm.trans hno) (by simp)
      · have hrestQueue := queue_settle
          (s := { s with responses := rest, writePipeline := done ++ left }) hqueue (.ok ())
        exact Eq.subst (motive := fun q => done ++ left <+: q) hrestQueue.symm
          (List.prefix_append _ _)
      · have hlength := h.front.2
        rw [hpipeline] at hlength
        exact Nat.le_of_succ_le hlength

/-- The answer to the handshake: the pipeline is sent. -/
theorem handshake_ok (h : Sound s) (hstate : s.state = .open)
    (hhandshake : s.handshakeComplete = false) {response : WriteResponse U M}
    {rest : List (WriteResponse U M)} (hresponses : s.responses = response :: rest) :
    ∃ t, { s with responses := rest, handshakeComplete := true }.onWriteStreamHandshakeComplete =
      .ok t ∧ Sound t := by
  obtain ⟨hne, hfinishing, ⟨-, hnone⟩ | ⟨hrequests, hresponse⟩⟩ :=
    h.wired.greeting hstate hhandshake
  · rw [hnone] at hresponses
    cases hresponses
  · have hrest : rest = [] := by
      rw [hresponse] at hresponses
      exact (List.cons.inj hresponses).2.symm
    refine ⟨_, foldlM_writeMutations _ _ (decide_eq_true hstate) rfl, h.tidy,
      ⟨h.wired.staged, ?_, ?_, ?_, ?_, ?_⟩,
      ⟨h.full.pipeline, h.full.stopped, h.full.started⟩, fun _ => hstate⟩
    · intro hno
      exact absurd hstate hno
    · intro _ hno
      cases hno
    · intro _ _
      refine ⟨[], s.writePipeline, hrest, ?_, rfl, fun b hb => absurd hb List.not_mem_nil, ?_⟩
      · show s.requests ++ s.writePipeline.map .mutations = _
        rw [hrequests]
        rfl
      · intro code hcode
        have hcode' : s.finishing = some code := hcode
        rw [hfinishing] at hcode'
        cases hcode'
    · intro hidle
      have hidle' : (s.idlenessTimer && s.writePipeline.isEmpty) = true := hidle
      rw [Bool.and_eq_true, List.isEmpty_iff] at hidle'
      exact absurd hidle'.2 hne
    · rintro (hno | hno)
      · exact absurd (hstate.symm.trans hno) (by simp)
      · exact absurd (hstate.symm.trans hno) (by simp)

/-! ### The end of a stream -/

theorem tidy_abandon (htidy : s.ledger.Tidy)
    (hfollows : s.ledger.Follows (s.requests.filterMap WriteRequest.batch?)) :
    s.abandon.ledger.Tidy := by
  refine htidy.abandon hfollows ?_
  intro bs hbs
  have hbs' : bs ∈ if s.finishing.isSome then s.abandoned
      else s.abandoned ++ [s.requests.filterMap WriteRequest.batch?] := hbs
  split at hbs'
  · exact Or.inl hbs'
  · exact (List.mem_append.mp hbs').imp id List.mem_singleton.mp

theorem wired_of_stopped (hstaged : Staged s.state s.connection)
    (hstate : s.state = .initial ∨ s.state = .error)
    (hwire : s.requests = [] ∧ s.responses = [] ∧ s.finishing = none)
    (hidle : s.idlenessTimer = false) : Wired s := by
  have hclosed : s.state ≠ .open := by
    rcases hstate with hstate | hstate
    · simp [hstate]
    · simp [hstate]
  refine ⟨hstaged, fun _ => hwire, fun ho => absurd ho hclosed, fun ho => absurd ho hclosed,
    ?_, ?_⟩
  · intro htimer
    rw [hidle] at htimer
    cases htimer
  · rcases hstate with hstate | hstate
    · simp [hstate]
    · simp [hstate]

/-- The handshake is forgotten with the stream. -/
theorem sound_of_not_open (htidy : s.ledger.Tidy) (hwired : Wired s) (hfull : Full s)
    (hstate : s.state ≠ .open) : Sound { s with handshakeComplete := false } where
  tidy := htidy
  wired := ⟨hwired.staged, hwired.closed, fun ho => absurd ho hstate, fun ho => absurd ho hstate,
    fun hidle => absurd (hwired.idle hidle).1 hstate, hwired.busy⟩
  full := ⟨hfull.pipeline, hfull.stopped, hfull.started⟩
  handshake := by
    intro hno
    cases hno

/-- Nothing of the stream is left, and what it was asked for does not matter any more. -/
def ended (s : Writes U M) (state : StreamState) : Writes U M :=
  { s.abandon with idlenessTimer := false, connection := s.connection.closed, state }

theorem wired_ended (hwired : Wired s) {state : StreamState}
    (hstate : state = .initial ∨ state = .error) : Wired (s.ended state) :=
  wired_of_stopped (hwired.staged.closed state) hstate ⟨rfl, rfl, rfl⟩ rfl

/-- A stream that is not needed is stopped. -/
theorem close_none_eq (h : s.isNetworkEnabled = false ∨ s.writePipeline = []) :
    s.close none = .ok (if s.isStarted then { s.ended .initial with handshakeComplete := false }
      else s) := by
  unfold close
  by_cases hstarted : s.isStarted = true
  · have hshould : shouldStartWriteStream (s.ended .initial) = false := by
      rcases h with h | h
      · simp [shouldStartWriteStream, canUseNetwork, ended, abandon, h]
      · simp [shouldStartWriteStream, ended, abandon, h]
    rw [if_pos hstarted]
    simp only [hstarted]
    show (onWriteStreamClose (s.ended .initial) none >>= _) = _
    unfold onWriteStreamClose
    rw [if_neg (by simp [hshould]), startIfNeeded_eq, started_eq_self hshould]
    rfl
  · rw [if_neg hstarted]
    simp [hstarted]

theorem onWriteStreamClose_writes
    (h : (!s.writePipeline.isEmpty && s.handshakeComplete) = true) (code : Code) :
    s.onWriteStreamClose (some code) = s.handleWriteError code >>= startIfNeeded :=
  if_pos h

theorem onWriteStreamClose_other
    (h : ¬ (!s.writePipeline.isEmpty && s.handshakeComplete) = true) (code : Code) :
    s.onWriteStreamClose (some code) = s.startIfNeeded :=
  if_neg h

theorem close_error_eq (hstarted : s.isStarted = true) (code : Code) :
    s.close (some code) = (onWriteStreamClose (s.ended .error) (some code)).map
      fun t => { t with handshakeComplete := false } := by
  unfold close
  simp only [hstarted]
  show (onWriteStreamClose (s.ended .error) (some code) >>= _) = _
  cases onWriteStreamClose (s.ended .error) (some code)
  · rfl
  · rfl

/-- A stream that is stopped is started again if there is something to send. -/
theorem restart_ok (htidy : s.ledger.Tidy) (hwired : Wired s)
    (hstate : s.state = .initial ∨ s.state = .error)
    (henabled : s.isNetworkEnabled = true)
    (hpipeline : s.writePipeline = s.queue.take kMaxPendingWrites) :
    Sound { s.started with handshakeComplete := false } := by
  refine sound_of_not_open htidy hwired.started ⟨?_, ?_, ?_⟩ ?_
  · show s.writePipeline = if s.isNetworkEnabled then s.queue.take kMaxPendingWrites else []
    rw [if_pos henabled]
    exact hpipeline
  · intro hdisabled
    have hfalse : s.isNetworkEnabled = false := hdisabled
    rw [henabled] at hfalse
    cases hfalse
  · exact isStarted_started henabled
  · rw [Ne, state_started_eq_open]
    rcases hstate with hstate | hstate
    · simp [hstate]
    · simp [hstate]

/-- An error about the first batch of the pipeline ends that batch. -/
theorem handleWriteError_eq {code : Code} (hcode : isPermanentWriteError code = true)
    {batch : MutationBatch U M} {rest more : List (MutationBatch U M)}
    (hpipeline : s.writePipeline = batch :: rest) (hqueue : s.queue = batch :: more)
    (hstopped : s.isStarted = false) :
    s.handleWriteError code =
      ({ s with writePipeline := rest, state := .initial }.settle batch
        (.error code)).fillWritePipeline := by
  unfold handleWriteError
  rw [hpipeline, hcode]
  show (inhibitBackoff { s with writePipeline := rest } >>= _) = _
  unfold inhibitBackoff
  rw [if_neg (by
    show ¬ s.isStarted = true
    simp [hstopped])]
  show (handleRejectedWrite { s with writePipeline := rest, state := .initial } batch.batchId code
    >>= fillWritePipeline) = _
  rw [handleRejectedWrite_eq (s := { s with writePipeline := rest, state := .initial })
    (find?_of_queue hqueue)]
  rfl

/-- The stream ends with an error; one about the writes is the end of the first batch. -/
theorem close_error_ok (h : Sound s) {code : Code} (hstarted : s.isStarted = true)
    (hcode : s.handshakeComplete = true → isPermanentWriteError code = true →
      ∀ batch rest, s.writePipeline = batch :: rest →
        (batch, code) ∈ s.refused ∨ (batch, code) ∈ s.blamed) :
    ∃ t, s.close (some code) = .ok t ∧ Sound t := by
  have henabled := h.enabled hstarted
  have hpipeline : s.writePipeline = s.queue.take kMaxPendingWrites := by
    have hfull := h.full.pipeline
    rwa [if_pos henabled] at hfull
  have htidy := tidy_abandon h.tidy h.follows
  -- Unless a batch is rejected, the stream is started again for the same pipeline.
  have hagain : Sound { (s.ended .error).started with handshakeComplete := false } :=
    restart_ok htidy (wired_ended h.wired (Or.inr rfl)) (Or.inr rfl) henabled hpipeline
  rw [close_error_eq hstarted]
  by_cases hwrites : (!s.writePipeline.isEmpty && s.handshakeComplete) = true
  · rw [onWriteStreamClose_writes (s := s.ended .error) hwrites]
    by_cases hpermanent : isPermanentWriteError code = true
    · obtain ⟨hne, hhandshake⟩ := Bool.and_eq_true_iff.mp hwrites
      obtain ⟨batch, rest, hfirst⟩ : ∃ batch rest, s.writePipeline = batch :: rest :=
        List.exists_cons_of_ne_nil (by simpa using hne)
      obtain ⟨more, hmore⟩ := h.front.1
      rw [hfirst] at hmore
      have hqueue : s.queue = batch :: (rest ++ more) := hmore.symm
      have hanswered := htidy.answered (l := s.abandon.ledger) hqueue (.error code)
        (fun hok => by cases hok) (by
          rintro _ ⟨⟩
          exact hcode hhandshake hpermanent batch rest hfirst)
      have hlength : rest.length ≤ kMaxPendingWrites := by
        have hle := h.front.2
        rw [hfirst] at hle
        exact Nat.le_of_succ_le hle
      obtain ⟨t, ht, hledger, hwired, hfull, -, hstate⟩ := fill_ok
        (s := settle { s.ended .initial with writePipeline := rest } batch (.error code))
        hanswered
        (wired_of_stopped (h.wired.staged.closed .initial) (Or.inl rfl) ⟨rfl, rfl, rfl⟩ rfl) henabled
        (Eq.subst (motive := fun q => rest <+: q) (queue_settle
          (s := { s.ended .initial with writePipeline := rest }) hqueue
          (.error code)).symm (List.prefix_append _ _)) hlength
      have hsame : t.started = t := by
        by_cases hempty : t.writePipeline = []
        · exact started_eq_self (by simp [shouldStartWriteStream, hempty])
        · exact started_of_isStarted (hfull.started hempty)
      refine ⟨{ t with handshakeComplete := false }, ?_,
        sound_of_not_open (hledger ▸ hanswered) hwired hfull ?_⟩
      · rw [handleWriteError_eq (s := s.ended .error) hpermanent hfirst hqueue rfl]
        show ((fillWritePipeline _ >>= startIfNeeded).map _) = _
        rw [show settle { s.ended .error with writePipeline := rest, state := .initial } batch
          (.error code) = settle { s.ended .initial with writePipeline := rest } batch
          (.error code) from rfl, ht]
        show (startIfNeeded t).map _ = _
        rw [startIfNeeded_eq, hsame]
        rfl
      · rw [Ne, hstate]
        simp [settle, ended]
    · refine ⟨_, ?_, hagain⟩
      unfold handleWriteError
      rw [if_pos (by simp [hpermanent])]
      show (startIfNeeded _).map _ = _
      rw [startIfNeeded_eq]
      rfl
  · rw [onWriteStreamClose_other (s := s.ended .error) hwrites]
    refine ⟨_, ?_, hagain⟩
    show (startIfNeeded _).map _ = _
    rw [startIfNeeded_eq]
    rfl

/-- A batch is blamed for an error, and nothing else happens. -/
theorem blame_ok (h : Sound s) (code : Code) : Sound (s.blame code) := by
  unfold blame
  split
  · exact ⟨h.tidy.accused (fun _ hx => hx) fun _ hx => List.mem_append_left _ hx,
      ⟨h.wired.staged, h.wired.closed, h.wired.greeting, h.wired.flight, h.wired.idle,
        h.wired.busy⟩, ⟨h.full.pipeline, h.full.stopped, h.full.started⟩, h.handshake⟩
  · exact h

theorem mem_blamed {code : Code} (hhandshake : (s.blame code).handshakeComplete = true)
    (hcode : isPermanentWriteError code = true) {batch : MutationBatch U M}
    {rest : List (MutationBatch U M)} (hfirst : (s.blame code).writePipeline = batch :: rest) :
    (batch, code) ∈ (s.blame code).blamed := by
  have hshake : s.handshakeComplete = true := by
    unfold blame at hhandshake
    split at hhandshake
    · exact hhandshake
    · exact hhandshake
  unfold blame at hfirst ⊢
  rw [if_pos (by simp [hshake, hcode])] at hfirst ⊢
  have hfirst' : s.writePipeline = batch :: rest := hfirst
  simp [hfirst']

theorem isStarted_blame (s : Writes U M) (code : Code) :
    (s.blame code).isStarted = s.isStarted := by
  unfold blame
  split
  · rfl
  · rfl

/-- A response has been read; one that does not parse is lost, like all behind it. -/
theorem read_ok (h : Sound s) {response : WriteResponse U M} {rest : List (WriteResponse U M)}
    (hresponses : s.responses = response :: rest) (parses : Bool) :
    ∃ t, onStreamRead { if parses then s else s.blame .dataLoss with responses := rest } parses =
      .ok t ∧ Sound t := by
  have hstate : s.state = .open := by
    by_contra hno
    rw [(h.wired.closed hno).2.1] at hresponses
    cases hresponses
  have hstarted : s.isStarted = true := by simp [isStarted, isOpen, hstate]
  cases parses with
  | false =>
      have hclose : onStreamRead { s.blame .dataLoss with responses := rest } false =
          (s.blame .dataLoss).close (some .dataLoss) := by
        unfold onStreamRead
        rw [show isStarted { s.blame .dataLoss with responses := rest } = true from
          (isStarted_blame s .dataLoss).trans hstarted]
        rfl
      rw [if_neg (by simp), hclose]
      refine close_error_ok (blame_ok h .dataLoss) ((isStarted_blame s _).trans hstarted) ?_
      intro hhandshake hcode batch rest hfirst
      exact Or.inr (mem_blamed hhandshake hcode hfirst)
  | true =>
      unfold onStreamRead
      rw [if_pos rfl, show isStarted { s with responses := rest } = true from hstarted]
      rcases Bool.eq_false_or_eq_true s.handshakeComplete with hhandshake | hhandshake
      · show ∃ t, (if s.handshakeComplete = true then _ else _) = _ ∧ _
        rw [if_pos hhandshake]
        exact result_ok h hstate hhandshake hresponses
      · show ∃ t, (if s.handshakeComplete = true then _ else _) = _ ∧ _
        rw [if_neg (by simp [hhandshake])]
        exact handshake_ok h hstate hhandshake hresponses

/-! ### The network and the user -/

/-- The network is disabled, and there is no stream. -/
structure Resting (s : Writes U M) : Prop where
  tidy : s.ledger.Tidy
  disabled : s.isNetworkEnabled = false
  pipeline : s.writePipeline = []
  staged : Staged s.state s.connection
  state : s.state = .initial ∨ s.state = .error
  wire : s.requests = [] ∧ s.responses = [] ∧ s.finishing = none
  idle : s.idlenessTimer = false
  handshake : s.handshakeComplete = false

theorem Resting.isStarted (h : Resting s) : s.isStarted = false := by
  rcases h.state with hstate | hstate
  · simp [Writes.isStarted, isOpen, hstate]
  · simp [Writes.isStarted, isOpen, hstate]

theorem Resting.sound (h : Resting s) : Sound s where
  tidy := h.tidy
  wired := wired_of_stopped h.staged h.state h.wire h.idle
  full := by
    refine ⟨?_, fun _ => h.isStarted, fun hne => absurd h.pipeline hne⟩
    rw [h.disabled]
    exact h.pipeline
  handshake := by
    intro hshake
    rw [h.handshake] at hshake
    cases hshake

theorem disable_ok (htidy : s.ledger.Tidy)
    (hfollows : s.ledger.Follows (s.requests.filterMap WriteRequest.batch?)) (hwired : Wired s)
    (hhandshake : s.handshakeComplete = true → s.state = .open) :
    ∃ t, s.disableNetwork = .ok t ∧ Resting t := by
  unfold disableNetwork
  rw [close_none_eq (s := { s with isNetworkEnabled := false }) (Or.inl rfl)]
  refine ⟨_, rfl, ?_⟩
  by_cases hstarted : s.isStarted = true
  · rw [show isStarted { s with isNetworkEnabled := false } = true from hstarted]
    exact ⟨tidy_abandon htidy hfollows, rfl, rfl, hwired.staged.closed .initial, Or.inl rfl,
      ⟨rfl, rfl, rfl⟩, rfl, rfl⟩
  · rw [if_neg (show ¬ isStarted { s with isNetworkEnabled := false } = true from hstarted)]
    have hclosed : s.state ≠ .open := by
      intro hopen
      simp [isStarted, isOpen, hopen] at hstarted
    refine ⟨htidy, rfl, rfl, hwired.staged, state_of_stopped (Bool.eq_false_iff.mpr hstarted),
      hwired.closed hclosed, ?_, ?_⟩
    · rw [← Bool.not_eq_true]
      exact fun hidle => hclosed (hwired.idle hidle).1
    · rw [← Bool.not_eq_true]
      exact fun hshake => hclosed (hhandshake hshake)

theorem enable_ok (h : Sound s) : ∃ t, s.enableNetwork = .ok t ∧ Sound t :=
  fill_sound (s := { s with isNetworkEnabled := true }) h.tidy
    ⟨h.wired.staged, h.wired.closed, h.wired.greeting, h.wired.flight, h.wired.idle,
      h.wired.busy⟩ rfl h.front.1 h.front.2 h.handshake

theorem restartNetwork_ok (htidy : s.ledger.Tidy)
    (hfollows : s.ledger.Follows (s.requests.filterMap WriteRequest.batch?)) (hwired : Wired s)
    (hhandshake : s.handshakeComplete = true → s.state = .open) :
    ∃ t, s.restartNetwork = .ok t ∧ Sound t := by
  obtain ⟨t, ht, hresting⟩ := disable_ok htidy hfollows hwired hhandshake
  have hstaged : Staged .initial t.connection := by
    have hstaged := hresting.staged
    rcases hresting.state with hstate | hstate
    · rwa [hstate] at hstaged
    · rw [hstate] at hstaged
      exact hstaged.inhibited
  have hinitial : Resting { t with state := .initial } :=
    ⟨hresting.tidy, hresting.disabled, hresting.pipeline, hstaged, Or.inl rfl, hresting.wire,
      hresting.idle, hresting.handshake⟩
  obtain ⟨t', ht', hsound⟩ := enable_ok hinitial.sound
  refine ⟨t', ?_, hsound⟩
  unfold restartNetwork
  rw [ht]
  show (t.inhibitBackoff >>= enableNetwork) = _
  unfold inhibitBackoff
  rw [if_neg (by simp [hresting.isStarted])]
  exact ht'

theorem restartIfEnabled_ok (h : Sound s) : ∃ t, s.restartIfEnabled = .ok t ∧ Sound t := by
  unfold restartIfEnabled
  split
  · exact restartNetwork_ok h.tidy h.follows h.wired h.handshake
  · exact ⟨s, rfl, h⟩

theorem credentialChange_ok (h : Sound s) (user : U) :
    ∃ t, s.handleCredentialChange user = .ok t ∧ Sound t := by
  unfold handleCredentialChange
  by_cases huser : s.currentUser = user
  · rw [if_pos huser]
    exact restartIfEnabled_ok h
  · rw [if_neg huser]
    have htidy : (s.handleUserChange user).ledger.Tidy := h.tidy.userChange user _ fun x hx => hx
    have hwired : Wired (s.handleUserChange user) :=
      ⟨h.wired.staged, h.wired.closed, h.wired.greeting, h.wired.flight, h.wired.idle,
        h.wired.busy⟩
    unfold restartIfEnabled
    split
    · exact restartNetwork_ok htidy h.follows hwired h.handshake
    · rename_i hdisabled
      have hoff : s.isNetworkEnabled = false := Bool.eq_false_iff.mpr hdisabled
      refine ⟨_, rfl, htidy, hwired, ⟨?_, h.full.stopped, h.full.started⟩, h.handshake⟩
      have hpipeline := h.full.pipeline
      rw [hoff] at hpipeline
      show s.writePipeline = if s.isNetworkEnabled then _ else []
      rw [hoff]
      exact hpipeline

theorem launch_ok (h : Sound s) (user : U) : ∃ t, s.launch user = .ok t ∧ Sound t := by
  have htidy := (tidy_abandon h.tidy h.follows).userChange user []
    (fun x hx => absurd hx List.not_mem_nil)
  refine fill_sound htidy (wired_of_stopped Staged.unused (Or.inl rfl) ⟨rfl, rfl, rfl⟩ rfl) rfl
    List.nil_prefix (Nat.zero_le _) ?_
  intro hshake
  cases hshake

/-! ### The stream by itself -/

/-- Credentials come, and if the stream has not been closed since, it goes on. -/
theorem credentialsReceived_ok (h : Sound s) {request : Nat}
    (hrequest : request ∈ s.connection.credentialRequests) (error : Option Code) :
    ∃ t, (if s.connection.closeCount = request then
        resumeStartWithCredentials { s with connection := { s.connection with
          credentialRequests := s.connection.credentialRequests.erase request } } error
      else .ok { s with connection := { s.connection with
        credentialRequests := s.connection.credentialRequests.erase request } }) = .ok t ∧
      Sound t := by
  have hreceived : ∀ connection, Staged s.state connection → Sound { s with connection } :=
    fun connection hstaged => ⟨h.tidy, ⟨hstaged, h.wired.closed, h.wired.greeting, h.wired.flight,
      h.wired.idle, h.wired.busy⟩, ⟨h.full.pipeline, h.full.stopped, h.full.started⟩, h.handshake⟩
  have hstaged := h.wired.staged.received request
  by_cases hcurrent : s.connection.closeCount = request
  · rw [if_pos hcurrent]
    subst hcurrent
    have hstate : s.state = .starting := (h.wired.staged.asking hrequest).1
    unfold resumeStartWithCredentials
    rw [if_pos hstate]
    cases error with
    | none =>
        refine ⟨_, rfl, hreceived _ ?_⟩
        rw [hstate] at hstaged ⊢
        exact hstaged.created h.wired.staged.once.not_mem_erase
    | some code =>
        refine close_error_ok (hreceived _ hstaged) (by simp [isStarted, hstate]) ?_
        intro hshake
        have hopen := h.handshake hshake
        rw [hstate] at hopen
        cases hopen
  · rw [if_neg hcurrent]
    exact ⟨_, rfl, hreceived _ hstaged⟩

theorem streamStarted_ok (h : Sound s) (hstream : s.connection.grpcStream = some false) :
    ∃ t, s.onStreamStart = .ok t ∧ Sound t := by
  have hstate : s.state = .starting := h.wired.staged.connecting hstream
  have hclosed : s.state ≠ .open := by simp [hstate]
  have hhandshake : s.handshakeComplete = false := by
    rw [← Bool.not_eq_true]
    exact fun hshake => hclosed (h.handshake hshake)
  obtain ⟨hrequests, hresponses, hfinishing⟩ := h.wired.closed hclosed
  have hstarted : s.isStarted = true := by simp [isStarted, hstate]
  refine ⟨sent { s with
    state := .open, connection := { s.connection with grpcStream := some true } } .handshake, ?_,
    h.tidy, ⟨h.wired.staged.opened hstream, ?_, ?_, ?_, ?_, ?_⟩, ⟨h.full.pipeline, ?_, ?_⟩,
    fun _ => rfl⟩
  · simp [onStreamStart, writeHandshake, write, sent, isOpen, hhandshake]
  · intro hno
    exact absurd rfl hno
  · intro _ _
    refine ⟨h.wired.busy (Or.inl hstate), hfinishing, Or.inl ⟨?_, hresponses⟩⟩
    show s.requests ++ [.handshake] = [.handshake]
    rw [hrequests]
    rfl
  · intro _ hshake
    have hshake' : s.handshakeComplete = true := hshake
    rw [hhandshake] at hshake'
    cases hshake'
  · intro hidle
    cases hidle
  · rintro (hno | hno)
    · cases hno
    · cases hno
  · intro hdisabled
    rw [h.full.stopped hdisabled] at hstarted
    cases hstarted
  · intro _
    simp [isStarted, isOpen, sent]

theorem backoffElapsed_ok (h : Sound s) (htimer : s.connection.backoffTimer = true) :
    ∃ t, restart { s with connection := { s.connection with backoffTimer := false } } = .ok t ∧
      Sound t := by
  have hstate : s.state = .backoff := h.wired.staged.backoff htimer
  have hclosed : s.state ≠ .open := by simp [hstate]
  have hstarted : s.isStarted = true := by simp [isStarted, hstate]
  have hstaged := h.wired.staged
  rw [hstate] at hstaged
  refine ⟨{ s with
    state := .starting
    connection := Connection.requestCredentials { s.connection with backoffTimer := false } }, ?_,
    h.tidy, ⟨hstaged.elapsed.requestCredentials, fun _ => h.wired.closed hclosed, ?_, ?_, ?_, ?_⟩,
    ⟨h.full.pipeline, ?_, ?_⟩, ?_⟩
  · unfold restart
    rw [if_pos hstate]
    rfl
  · intro hno
    cases hno
  · intro hno
    cases hno
  · intro hidle
    exact absurd (h.wired.idle hidle).1 hclosed
  · intro _
    exact h.wired.busy (Or.inr hstate)
  · intro hdisabled
    rw [h.full.stopped hdisabled] at hstarted
    cases hstarted
  · intro _
    simp [isStarted]
  · intro hshake
    exact absurd (h.handshake hshake) hclosed

/-- The connection fails, whatever the error. -/
theorem streamBroken_ok (h : Sound s) (hstream : s.connection.grpcStream.isSome = true)
    (code : Code) : ∃ t, (s.blame code).close (some code) = .ok t ∧ Sound t := by
  have hstarted : s.isStarted = true := by
    obtain ⟨started, hsome⟩ := Option.isSome_iff_exists.mp hstream
    cases started with
    | false => simp [isStarted, h.wired.staged.connecting hsome]
    | true => simp [isStarted, isOpen, h.wired.staged.connected hsome]
  refine close_error_ok (blame_ok h code) ((isStarted_blame s code).trans hstarted) ?_
  intro hhandshake hcode batch rest hfirst
  exact Or.inr (mem_blamed hhandshake hcode hfirst)

/-- The backend has refused the first batch of the pipeline, and all responses are read. -/
theorem errorRead_ok (h : Sound s) {code : Code} (hfinishing : s.finishing = some code)
    (hresponses : s.responses = []) : ∃ t, s.close (some code) = .ok t ∧ Sound t := by
  have hstate : s.state = .open := by
    by_contra hno
    rw [(h.wired.closed hno).2.2] at hfinishing
    cases hfinishing
  refine close_error_ok h (by simp [isStarted, isOpen, hstate]) ?_
  intro hhandshake _ batch rest hfirst
  obtain ⟨done, left, hdone, -, hflight, -, hrefused⟩ := h.wired.flight hstate hhandshake
  obtain ⟨-, b, rest', rfl, hb⟩ := hrefused code hfinishing
  obtain rfl : done = [] := by
    rw [hresponses] at hdone
    exact List.map_eq_nil_iff.mp hdone.symm
  rw [List.nil_append, hfirst] at hflight
  obtain rfl : batch = b := (List.cons.inj hflight).1
  exact Or.inl hb

theorem idleElapsed_ok (h : Sound s) (hidle : s.idlenessTimer = true) :
    ∃ t, s.close none = .ok t ∧ Sound t := by
  obtain ⟨hstate, -, hpipeline⟩ := h.wired.idle hidle
  have hstarted : s.isStarted = true := by simp [isStarted, isOpen, hstate]
  refine ⟨_, close_none_eq (Or.inr hpipeline), ?_⟩
  rw [if_pos hstarted]
  refine ⟨tidy_abandon h.tidy h.follows,
    wired_of_stopped (h.wired.staged.closed .initial) (Or.inl rfl) ⟨rfl, rfl, rfl⟩ rfl,
    ⟨h.full.pipeline, ?_, fun hne => absurd hpipeline hne⟩, ?_⟩
  · intro _
    simp [isStarted, isOpen, ended]
  · intro hshake
    cases hshake

/-! ### The backend -/

/-- Mutations are requested only over a stream that is open for them. -/
theorem Sound.of_mutations (h : Sound s) {batch : MutationBatch U M}
    {rest : List (WriteRequest U M)} (hrequests : s.requests = .mutations batch :: rest) :
    s.state = .open ∧ s.handshakeComplete = true := by
  have hstate : s.state = .open := by
    by_contra hno
    rw [(h.wired.closed hno).1] at hrequests
    cases hrequests
  refine ⟨hstate, ?_⟩
  rw [← Bool.not_eq_false]
  intro hhandshake
  obtain ⟨-, -, ⟨hgreeting, -⟩ | ⟨hnone, -⟩⟩ := h.wired.greeting hstate hhandshake
  · rw [hgreeting] at hrequests
    cases hrequests
  · rw [hnone] at hrequests
    cases hrequests

theorem handshakeAnswered_ok (h : Sound s) {rest : List (WriteRequest U M)}
    (hrequests : s.requests = .handshake :: rest) :
    Sound { s with requests := rest, responses := s.responses ++ [.handshake] } := by
  have hstate : s.state = .open := by
    by_contra hno
    rw [(h.wired.closed hno).1] at hrequests
    cases hrequests
  have hhandshake : s.handshakeComplete = false := by
    rw [← Bool.not_eq_true]
    intro hshake
    obtain ⟨done, left, -, hleft, -⟩ := h.wired.flight hstate hshake
    rw [hrequests] at hleft
    cases left with
    | nil => cases hleft
    | cons b left => cases hleft
  obtain ⟨hne, hfinishing, ⟨hgreeting, hresponses⟩ | ⟨hnone, -⟩⟩ :=
    h.wired.greeting hstate hhandshake
  · rw [hrequests] at hgreeting
    refine ⟨h.tidy, ⟨h.wired.staged, fun hno => absurd hstate hno,
      fun _ _ => ⟨hne, hfinishing, Or.inr ⟨?_, ?_⟩⟩, ?_, h.wired.idle, h.wired.busy⟩,
      ⟨h.full.pipeline, h.full.stopped, h.full.started⟩, h.handshake⟩
    · exact (List.cons.inj hgreeting).2
    · show s.responses ++ [.handshake] = [.handshake]
      rw [hresponses]
      rfl
    · intro _ hshake
      have hshake' : s.handshakeComplete = true := hshake
      rw [hhandshake] at hshake'
      cases hshake'
  · rw [hnone] at hrequests
    cases hrequests

theorem commit_ok (h : Sound s) {batch : MutationBatch U M} {rest : List (WriteRequest U M)}
    (hfinishing : s.finishing = none) (hrequests : s.requests = .mutations batch :: rest) :
    Sound { s with
      requests := rest
      responses := s.responses ++ [.result batch]
      committed := s.committed ++ [batch] } := by
  obtain ⟨hstate, hhandshake⟩ := h.of_mutations hrequests
  obtain ⟨done, left, hresponses, hleft, hpipeline, hdone, -⟩ :=
    h.wired.flight hstate hhandshake
  rw [hrequests] at hleft
  cases left with
  | nil => cases hleft
  | cons b left =>
      obtain ⟨hb, hrest⟩ := List.cons.inj hleft
      obtain rfl : batch = b := WriteRequest.mutations.inj hb
      have hfollows : s.ledger.Follows (batch :: left) := by
        have hall := h.follows
        rw [hrequests, hrest] at hall
        simpa [WriteRequest.batch?, List.filterMap_map, Function.comp_def] using hall
      refine ⟨h.tidy.committed hfollows fun bs hbs => Or.inl hbs, ⟨h.wired.staged,
        fun hno => absurd hstate hno, ?_, ?_, h.wired.idle, h.wired.busy⟩,
        ⟨h.full.pipeline, h.full.stopped, h.full.started⟩, h.handshake⟩
      · intro _ hno
        have hno' : s.handshakeComplete = false := hno
        rw [hhandshake] at hno'
        cases hno'
      · intro _ _
        refine ⟨done ++ [batch], left, ?_, hrest, ?_, ?_, ?_⟩
        · show s.responses ++ [.result batch] = (done ++ [batch]).map .result
          rw [hresponses, List.map_append]
          rfl
        · show s.writePipeline = done ++ [batch] ++ left
          rw [hpipeline, List.append_assoc]
          rfl
        · intro b hb
          rcases List.mem_append.mp hb with hb | hb
          · exact List.mem_append_left _ (hdone b hb)
          · exact List.mem_append_right _ hb
        · intro code hcode
          have hcode' : s.finishing = some code := hcode
          rw [hfinishing] at hcode'
          cases hcode'

theorem refuse_ok (h : Sound s) {batch : MutationBatch U M} {rest : List (WriteRequest U M)}
    (hrequests : s.requests = .mutations batch :: rest) {code : Code}
    (hcode : isPermanentWriteError code = true) :
    Sound { s with finishing := some code, refused := s.refused ++ [(batch, code)] } := by
  obtain ⟨hstate, hhandshake⟩ := h.of_mutations hrequests
  obtain ⟨done, left, hresponses, hleft, hpipeline, hdone, -⟩ :=
    h.wired.flight hstate hhandshake
  refine ⟨h.tidy.accused (fun _ hx => List.mem_append_left _ hx) fun _ hx => hx,
    ⟨h.wired.staged, fun hno => absurd hstate hno, ?_, ?_, h.wired.idle, h.wired.busy⟩,
    ⟨h.full.pipeline, h.full.stopped, h.full.started⟩, h.handshake⟩
  · intro _ hno
    have hno' : s.handshakeComplete = false := hno
    rw [hhandshake] at hno'
    cases hno'
  · intro _ _
    refine ⟨done, left, hresponses, hleft, hpipeline, hdone, ?_⟩
    intro code' hcode'
    obtain rfl : code = code' := Option.some_inj.mp hcode'
    rw [hrequests] at hleft
    cases left with
    | nil => cases hleft
    | cons b left =>
        obtain ⟨hb, -⟩ := List.cons.inj hleft
        obtain rfl : batch = b := WriteRequest.mutations.inj hb
        exact ⟨hcode, batch, left, rfl, List.mem_append_right _ List.mem_cons_self⟩

theorem commitLate_ok (h : Sound s) {stream : Nat} {batch : MutationBatch U M}
    {rest : List (MutationBatch U M)} (hstream : s.abandoned[stream]? = some (batch :: rest)) :
    Sound { s with
      abandoned := s.abandoned.set stream rest
      committed := s.committed ++ [batch] } := by
  have hfollows := h.tidy.late (batch :: rest) (List.mem_of_getElem? hstream)
  refine ⟨h.tidy.committed hfollows ?_, ⟨h.wired.staged, h.wired.closed, h.wired.greeting, ?_,
    h.wired.idle, h.wired.busy⟩, ⟨h.full.pipeline, h.full.stopped, h.full.started⟩, h.handshake⟩
  · intro bs hbs
    exact List.mem_or_eq_of_mem_set hbs
  · intro hstate hhandshake
    obtain ⟨done, left, hresponses, hleft, hpipeline, hdone, hfinishing⟩ :=
      h.wired.flight hstate hhandshake
    exact ⟨done, left, hresponses, hleft, hpipeline,
      fun b hb => List.mem_append_left _ (hdone b hb), hfinishing⟩

theorem serve_ok (h : Sound s) (a : Action U M) : Sound (s.serve a) := by
  cases a with
  | handshakeAnswered =>
      simp only [serve]
      split
      · rename_i rest hrequests
        exact handshakeAnswered_ok h hrequests
      · exact h
  | commit =>
      simp only [serve]
      split
      · rename_i batch rest hfinishing hrequests
        exact commit_ok h hfinishing hrequests
      · exact h
  | refuse code =>
      simp only [serve]
      split
      · rename_i batch rest hfinishing hrequests
        split
        · rename_i hcode
          exact refuse_ok h hrequests hcode
        · exact h
      · exact h
  | commitLate stream =>
      simp only [serve]
      split
      · rename_i batch rest hstream
        exact commitLate_ok h hstream
      · exact h
  | _ => exact h

/-! ### Every run -/

/-- No assertion fails, and all is kept. -/
theorem step_ok (h : Sound s) (a : Action U M) : ∃ t, s.step a = .ok t ∧ Sound t := by
  cases a with
  | write mutations => exact write_ok h mutations
  | enableNetwork => exact enable_ok h
  | disableNetwork =>
      obtain ⟨t, ht, hresting⟩ := disable_ok h.tidy h.follows h.wired h.handshake
      exact ⟨t, ht, hresting.sound⟩
  | connectivityChanged => exact restartIfEnabled_ok h
  | credentialChanged user => exact credentialChange_ok h user
  | launch user => exact launch_ok h user
  | credentialsReceived request error =>
      simp only [step]
      split
      · rename_i hrequest
        exact credentialsReceived_ok h hrequest error
      · exact ⟨s, rfl, h⟩
  | streamStarted =>
      simp only [step]
      split
      · rename_i hstream
        exact streamStarted_ok h hstream
      · exact ⟨s, rfl, h⟩
  | backoffElapsed =>
      simp only [step]
      split
      · rename_i htimer
        exact backoffElapsed_ok h htimer
      · exact ⟨s, rfl, h⟩
  | idleElapsed =>
      simp only [step]
      split
      · rename_i hidle
        exact idleElapsed_ok h hidle
      · exact ⟨s, rfl, h⟩
  | streamBroken code =>
      simp only [step]
      split
      · rename_i hstream
        exact streamBroken_ok h hstream code
      · exact ⟨s, rfl, h⟩
  | responseRead parses =>
      simp only [step]
      split
      · exact ⟨s, rfl, h⟩
      · rename_i response rest hresponses
        exact read_ok h hresponses parses
  | errorRead =>
      simp only [step]
      split
      · rename_i code hfinishing hresponses
        exact errorRead_ok h hfinishing hresponses
      · exact ⟨s, rfl, h⟩
  | handshakeAnswered => exact ⟨_, rfl, serve_ok h .handshakeAnswered⟩
  | commit => exact ⟨_, rfl, serve_ok h .commit⟩
  | refuse code => exact ⟨_, rfl, serve_ok h (.refuse code)⟩
  | commitLate stream => exact ⟨_, rfl, serve_ok h (.commitLate stream)⟩

theorem sound_installed (user : U) : Sound (installed (M := M) user) where
  tidy := by
    refine ⟨fun b hb => absurd hb List.not_mem_nil, fun b hb => absurd hb List.not_mem_nil,
      MutationTable.loadNextBatchIdFromDb_pos _, fun x hx => absurd hx List.not_mem_nil,
      fun u => rfl, ?_, ?_, ?_, ?_, List.nodup_nil, ?_, fun bs hbs => absurd hbs List.not_mem_nil⟩
    · intro u i b hb
      cases hb
    · intro u b hb
      exact absurd hb List.not_mem_nil
    · intro u b code hb
      exact absurd hb List.not_mem_nil
    · intro u serial status hn
      exact absurd hn List.not_mem_nil
    · intro before b after heq
      have hnil : ([] : List (MutationBatch U M)) = before ++ b :: after := heq
      simp at hnil
  wired := wired_of_stopped Staged.unused (Or.inl rfl) ⟨rfl, rfl, rfl⟩ rfl
  full := ⟨rfl, fun hno => (by cases hno), fun hne => absurd rfl hne⟩
  handshake := by
    intro hno
    cases hno

theorem run_ok (user : U) (as : List (Action U M)) : ∃ s, run user as = .ok s ∧ Sound s := by
  refine Machine.run_invariant
    (I := fun r : Except WriteFault (Writes U M) => ∃ s, r = .ok s ∧ Sound s) ?_ as _
    ⟨_, rfl, sound_installed user⟩
  rintro r a ⟨s, rfl, hs⟩
  exact step_ok hs a

/--
Whatever happens, no assertion fails.  The pipeline is always the first batches of the current
user's queue, as many as it takes, and as long as there are any the stream is started; with
the network disabled there is neither pipeline nor stream.
-/
theorem pipeline_ready (user : U) (as : List (Action U M)) :
    ∃ s, run user as = .ok s ∧
      (s.isNetworkEnabled = true → s.writePipeline = s.queue.take kMaxPendingWrites ∧
        (s.queue ≠ [] → s.isStarted = true)) ∧
      (s.isNetworkEnabled = false → s.writePipeline = [] ∧ s.isStarted = false) := by
  obtain ⟨s, hs, hsound⟩ := run_ok user as
  have hpipeline := hsound.full.pipeline
  refine ⟨s, hs, ?_, ?_⟩
  · intro henabled
    rw [if_pos henabled] at hpipeline
    refine ⟨hpipeline, ?_⟩
    intro hne
    refine hsound.full.started ?_
    rw [hpipeline]
    intro hnone
    rcases List.take_eq_nil_iff.mp hnone with hzero | hempty
    · cases hzero
    · exact hne hempty
  · intro hdisabled
    rw [hdisabled] at hpipeline
    exact ⟨hpipeline, hsound.full.stopped hdisabled⟩

-- The response to a batch that has been committed does not parse, and the caller is told an error.
example : (run (M := Unit) 0 [.write (), .credentialsReceived 0 none, .streamStarted,
    .handshakeAnswered, .responseRead true, .commit, .responseRead false]).toOption.map
      (fun s => (s.committed.map MutationBatch.serial, s.notified)) =
    some ([0], [(0, 0, .error .dataLoss)]) := rfl

/--
No write overtakes another: when the backend commits a batch, over a stream or long after, it
has committed all that its user has written before, but what has been answered with an error.
-/
theorem no_overtaking (user : U) (as : List (Action U M)) :
    ∃ s, run user as = .ok s ∧ ∀ before b after, s.committed = before ++ b :: after →
      (s.written b.user)[b.serial]? = some b ∧
      ∀ b' ∈ (s.written b.user).take b.serial,
        b' ∈ before ∨ ∃ code, (b', .error code) ∈ s.answered b.user := by
  obtain ⟨s, hs, hsound⟩ := run_ok user as
  have htidy := hsound.tidy
  refine ⟨s, hs, ?_⟩
  intro before b after heq
  obtain ⟨hb, hsettled⟩ := htidy.inOrder before b after heq
  refine ⟨htidy.getElem?_serial hb, ?_⟩
  intro b' hb'
  obtain ⟨j, hj⟩ := List.mem_iff_getElem?.mp hb'
  have hlt : j < b.serial := by
    have hlength := (List.getElem?_eq_some_iff.mp hj).1
    rw [List.length_take] at hlength
    omega
  rw [List.getElem?_take_of_lt hlt] at hj
  have hserial := (htidy.serial b.user j b' hj).2
  have hmem := List.mem_of_getElem? hj
  rcases hsettled j hlt with ⟨c, hc, huser, hcserial⟩ | ⟨c, code, hc, hcserial⟩
  · -- What has been committed under this serial is what was written under it.
    have hcommitted : c ∈ s.committed := by
      rw [heq]
      exact List.mem_append_left _ hc
    have hwritten := htidy.mem_written_of_committed hcommitted
    rw [huser] at hwritten
    rw [htidy.eq_of_serial hmem hwritten (hserial.trans hcserial.symm)]
    exact Or.inl hc
  · have hwritten := htidy.mem_written_of_answered hc
    rw [htidy.eq_of_serial hmem hwritten (hserial.trans hcserial.symm)]
    exact Or.inr ⟨code, hc⟩

end Writes

end Firebase
