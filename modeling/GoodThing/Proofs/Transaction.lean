/-
Transactions one after the other.

`Serial` is what a block means on its own: every read sees the values as they are at that
moment, and every write changes them at once.  The runners do nothing of the kind: their
reads are spread over time, their writes wait until the end, and other commits come in
between.  But the commits the backend takes have the effect of the blocks run one after the
other, in the order they were taken.

The invariant is `Faithful`: on any values that agree with what a transaction has read,
running its block is applying the writes it has collected and then running the rest of the
block.  The preconditions it sends are there to make the backend's values such values.
-/
import GoodThing.Firebase.Transaction

namespace Firebase

open Versioned Versioned.Store

variable {C K V : Type} [DecidableEq K]

/-- The block run alone.  A read may fail; a document that does not exist cannot be updated, and
a block that ends with an error has no effect at all. -/
inductive Serial : UpdateBlock K V → (K → Option V) → (K → Option V) → Prop
  | read {key : K} {next : Except Code (Option V) → UpdateBlock K V} {values after : K → Option V}
      (h : Serial (next (.ok (values key))) values after) :
      Serial (.getDocument key next) values after
  | readFails {key : K} {next : Except Code (Option V) → UpdateBlock K V}
      {values after : K → Option V} (code : Code)
      (h : Serial (next (.error code)) values after) : Serial (.getDocument key next) values after
  | set {key : K} {value : Option V → V} {next : UpdateBlock K V} {values after : K → Option V}
      (h : Serial next (Function.update values key (some (value (values key)))) after) :
      Serial (.setData key value next) values after
  | update {key : K} {value : V → V} {next : UpdateBlock K V} {values after : K → Option V} {v : V}
      (hv : values key = some v)
      (h : Serial next (Function.update values key (some (value v))) after) :
      Serial (.updateData key value next) values after
  | delete {key : K} {next : UpdateBlock K V} {values after : K → Option V}
      (h : Serial next (Function.update values key none) after) :
      Serial (.deleteDocument key next) values after
  | «return» {values : K → Option V} : Serial .return values values

/-- Blocks run one after the other. -/
inductive SerialRun (blocks : C → UpdateBlock K V) (before : K → Option V) :
    List C → (K → Option V) → Prop
  | nil : SerialRun blocks before [] before
  | snoc {cs : List C} {c : C} {values after : K → Option V}
      (hbefore : SerialRun blocks before cs values) (h : Serial (blocks c) values after) :
      SerialRun blocks before (cs ++ [c]) after

/-! ### What a transaction has read and written -/

/-- `t` is what `body` has made of the documents in `seen`, and `rest` is what is left of it. -/
structure Faithful (s : Store K V) (body : UpdateBlock K V) (t : Transaction K V)
    (rest : UpdateBlock K V) (seen : K → Cell V) : Prop where
  read : ∀ k version, t.getVersion k = some version →
    version = time (seen k) ∧ Holds s k (seen k) ∧ ∀ x, seen k = some x → 0 < x.2
  written : t.writtenDocs = t.mutations.map Mutation.key
  /-- The first write of a document that was read asks for the version it was read with. -/
  pinned : ∀ k version m, t.getVersion k = some version →
    t.mutations.find? (fun m => m.key = k) = some m → m.precondition = pin version
  replay : ∀ base, (∀ k version, t.getVersion k = some version → base k = Cell.value (seen k)) →
    ∀ values, applyAll base t.mutations = some values →
      ∀ after, Serial rest values after → Serial body base after

namespace Transaction

/-- As long as a document is not written, its precondition is its version. -/
theorem createPrecondition_unwritten {t : Transaction K V} {key : K} {version : Nat}
    (hread : t.getVersion key = some version) (hkey : key ∉ t.writtenDocs) :
    t.createPrecondition key = pin version := by
  unfold createPrecondition
  rw [hread]
  exact if_pos hkey

theorem createUpdatePrecondition_unwritten {t : Transaction K V} {key : K} {version : Nat}
    {p : Precondition} (hread : t.getVersion key = some version) (hkey : key ∉ t.writtenDocs)
    (hp : t.createUpdatePrecondition key = .ok p) : p = pin version := by
  unfold createUpdatePrecondition at hp
  rw [hread] at hp
  simp only [if_pos hkey] at hp
  by_cases hzero : version = 0
  · rw [if_pos hzero] at hp
    cases hp
  · rw [if_neg hzero] at hp
    simp only [Except.ok.injEq] at hp
    rw [← hp]
    exact (if_neg hzero).symm

/-- Once a write has failed, so has the transaction. -/
theorem lastWriteError_update {t : Transaction K V} {key : K} {value : V → V}
    (h : (t.update key value).lastWriteError = none) : t.lastWriteError = none ∧
      ∃ p, t.createUpdatePrecondition key = .ok p ∧
        t.update key value = t.writeMutation ⟨key, p, .update value⟩ := by
  unfold update at h ⊢
  cases hp : t.createUpdatePrecondition key with
  | error code =>
      rw [hp] at h
      cases h
  | ok p =>
      rw [hp] at h
      exact ⟨h, p, rfl, rfl⟩

theorem mem_of_getVersion {t : Transaction K V} {key : K} {version : Nat}
    (h : t.getVersion key = some version) : key ∈ t.readVersions.map Prod.fst := by
  obtain ⟨x, hx, rfl⟩ := Option.map_eq_some_iff.mp h
  have hkey : x.1 = key := by simpa using List.find?_some hx
  exact List.mem_map.mpr ⟨x, List.mem_of_find?_eq_some hx, hkey⟩

theorem getVersion_append {t : Transaction K V} {key : K} {version : Nat}
    (h : t.getVersion key = none) (k : K) :
    getVersion { t with readVersions := t.readVersions ++ [(key, version)] } k =
      if k = key then some version else t.getVersion k := by
  have hnone : t.readVersions.find? (fun x => x.1 = key) = none := Option.map_eq_none_iff.mp h
  unfold getVersion
  rw [List.find?_append]
  by_cases hk : k = key
  · rw [hk, hnone, if_pos rfl]
    simp
  · rw [if_neg hk, List.find?_singleton, if_neg (by simpa using Ne.symm hk), Option.or_none]

theorem lastWriteError_recordVersion {t t' : Transaction K V} {key : K} {version : Nat}
    (h : t.recordVersion key version = .ok t') : t'.lastWriteError = t.lastWriteError := by
  unfold recordVersion at h
  split at h
  · split at h
    · cases h
    · rw [← Except.ok.inj h]
  · rw [← Except.ok.inj h]

end Transaction

namespace Faithful

variable {s : Store K V} {body rest : UpdateBlock K V} {t : Transaction K V} {seen : K → Cell V}

theorem new (s : Store K V) (body : UpdateBlock K V) :
    Faithful s body .new body fun _ => none where
  read := by
    intro k version h
    cases h
  written := rfl
  pinned := by
    intro k version m h
    cases h
  replay := by
    intro base _ values hvalues after h
    obtain rfl := Option.some_inj.mp hvalues
    exact h

/-- Whatever others write, what was read stays what it was at its version. -/
theorem commit (h : Faithful s body t rest seen) {next : Store K V} {ms : List (Mutation K V)}
    (hcommit : s.commit ms = some next) : Faithful next body t rest seen where
  read := by
    intro k version hread
    obtain ⟨hversion, hholds, hpos⟩ := h.read k version hread
    exact ⟨hversion, hholds.commit hcommit, hpos⟩
  written := h.written
  pinned := h.pinned
  replay := h.replay

/-- One more write. -/
theorem write (h : Faithful s body t rest seen) {m : Mutation K V} {rest' : UpdateBlock K V}
    (hpin : ∀ version, t.getVersion m.key = some version → m.key ∉ t.writtenDocs →
      m.precondition = pin version)
    (hstep : ∀ values values', applyTo values m = some values' →
      ∀ after, Serial rest' values' after → Serial rest values after) :
    Faithful s body (t.writeMutation m) rest' seen where
  read := h.read
  written := by
    show t.writtenDocs ++ [m.key] = (t.mutations ++ [m]).map Mutation.key
    rw [h.written, List.map_append]
    rfl
  pinned := by
    intro k version m' hread hm'
    have hread' : t.getVersion k = some version := hread
    rw [show (t.writeMutation m).mutations = t.mutations ++ [m] from rfl,
      List.find?_append, Option.or_eq_some_iff] at hm'
    rcases hm' with hm' | ⟨hnone, hm'⟩
    · exact h.pinned k version m' hread' hm'
    · -- The first write of this document is the one that is added.
      have hkey : m.key = k ∧ m = m' := by simpa using hm'
      obtain ⟨rfl, rfl⟩ := hkey
      refine hpin version hread' ?_
      rw [h.written]
      intro hmem
      obtain ⟨m', hm', hm'key⟩ := List.mem_map.mp hmem
      have hne := List.find?_eq_none.mp hnone m' hm'
      simp [hm'key] at hne
  replay := by
    intro base hbase values hvalues after hafter
    rw [show (t.writeMutation m).mutations = t.mutations ++ [m] from rfl, applyAll_append] at hvalues
    obtain ⟨mid, hmid, hlast⟩ := Option.bind_eq_some_iff.mp hvalues
    have hlast' : applyTo mid m = some values := by
      simpa [applyAll] using hlast
    exact h.replay base hbase mid hmid after (hstep mid values hlast' after hafter)

theorem set {key : K} {value : Option V → V}
    (h : Faithful s body t (.setData key value rest) seen) :
    Faithful s body (t.set key value) rest seen := by
  refine h.write ?_ ?_
  · intro version hread hkey
    exact Transaction.createPrecondition_unwritten hread hkey
  · intro values values' hvalues after hafter
    obtain rfl := Option.some_inj.mp hvalues
    exact .set hafter

theorem delete {key : K} (h : Faithful s body t (.deleteDocument key rest) seen) :
    Faithful s body (t.delete key) rest seen := by
  refine h.write ?_ ?_
  · intro version hread hkey
    exact Transaction.createPrecondition_unwritten hread hkey
  · intro values values' hvalues after hafter
    obtain rfl := Option.some_inj.mp hvalues
    exact .delete hafter

theorem update {key : K} {value : V → V}
    (h : Faithful s body t (.updateData key value rest) seen)
    (hok : (t.update key value).lastWriteError = none) :
    Faithful s body (t.update key value) rest seen := by
  obtain ⟨-, p, hp, heq⟩ := Transaction.lastWriteError_update hok
  rw [heq]
  refine h.write ?_ ?_
  · intro version hread hkey
    exact Transaction.createUpdatePrecondition_unwritten hread hkey hp
  · intro values values' hvalues after hafter
    unfold applyTo at hvalues
    cases hv : values key with
    | none =>
        simp only [hv, Change.apply, Option.map_none] at hvalues
        cases hvalues
    | some v =>
        simp only [hv, Change.apply, Option.map_some, Option.some_inj] at hvalues
        obtain rfl := hvalues
        exact .update hv hafter

/-- A read that fails. -/
theorem readFails {key : K} {next : Except Code (Option V) → UpdateBlock K V}
    (h : Faithful s body t (.getDocument key next) seen) (code : Code) :
    Faithful s body t (next (.error code)) seen where
  read := h.read
  written := h.written
  pinned := h.pinned
  replay := by
    intro base hbase values hvalues after hafter
    exact h.replay base hbase values hvalues after (.readFails code hafter)

/-- A read sees what an earlier one has seen, or the transaction knows that it does not. -/
theorem read_ok {key : K} {next : Except Code (Option V) → UpdateBlock K V}
    (h : Faithful s body t (.getDocument key next) seen) (hfirst : t.mutations = [])
    {t' : Transaction K V} (ht' : t.recordVersion key (time (s.cells key)) = .ok t') :
    ∃ seen', Faithful s body t' (next (.ok (s.values key))) seen' := by
  unfold Transaction.recordVersion at ht'
  cases hread : t.getVersion key with
  | some existing =>
      rw [hread] at ht'
      have hsame : time (s.cells key) = existing := by
        by_contra hne
        simp only [ne_eq, hne, not_false_eq_true, if_true] at ht'
        cases ht'
      simp only [hsame, ne_eq, not_true_eq_false, if_false, Except.ok.injEq] at ht'
      subst ht'
      obtain ⟨hversion, hholds, hpos⟩ := h.read key existing hread
      have hvalue : s.values key = Cell.value (seen key) :=
        value_of_time hholds hpos (hsame.trans hversion)
      refine ⟨seen, h.read, h.written, h.pinned, ?_⟩
      intro base hbase values hvalues after hafter
      refine h.replay base hbase values hvalues after (.read ?_)
      rw [hfirst] at hvalues
      obtain rfl := Option.some_inj.mp hvalues
      rw [hbase key existing hread, ← hvalue]
      exact hafter
  | none =>
      rw [hread] at ht'
      simp only [Except.ok.injEq] at ht'
      have hnew : ∀ k, t'.getVersion k =
          if k = key then some (time (s.cells key)) else t.getVersion k := by
        intro k
        rw [← ht']
        exact Transaction.getVersion_append hread k
      have hmut : t'.mutations = t.mutations := by rw [← ht']
      refine ⟨Function.update seen key (s.cells key), ?_, ?_, ?_, ?_⟩
      · intro k version hk
        rw [hnew] at hk
        by_cases hkey : k = key
        · rw [if_pos hkey, Option.some_inj] at hk
          rw [hkey, Function.update_self]
          exact ⟨hk.symm, holds_self s key, fun x hx => (s.past key x hx).1⟩
        · rw [if_neg hkey] at hk
          rw [Function.update_of_ne hkey]
          exact h.read k version hk
      · rw [hmut, ← ht']
        exact h.written
      · intro k version m _ hm
        rw [hmut, hfirst] at hm
        cases hm
      · intro base hbase values hvalues after hafter
        rw [hmut] at hvalues
        have hvalue : base key = s.values key := by
          have hkey := hbase key (time (s.cells key)) (by rw [hnew, if_pos rfl])
          rwa [Function.update_self] at hkey
        refine h.replay base ?_ values hvalues after (.read ?_)
        · intro k version hk
          have hne : k ≠ key := by
            rintro rfl
            rw [hread] at hk
            cases hk
          have hk' := hbase k version (by rw [hnew, if_neg hne]; exact hk)
          rwa [Function.update_of_ne hne] at hk'
        · rw [hfirst] at hvalues
          obtain rfl := Option.some_inj.mp hvalues
          rw [hvalue]
          exact hafter

/-- Every document that was read is named by the commit, first with the version it was read with. -/
theorem first_pinned (h : Faithful s body t .return seen) {k : K} {version : Nat}
    (hread : t.getVersion k = some version) : ∃ m,
      (t.mutations ++ t.unwritten.map fun key =>
        (⟨key, t.createPrecondition key, .verify⟩ : Mutation K V)).find? (fun m => m.key = k) = some m ∧
      m.precondition = pin version := by
  rw [List.find?_append]
  cases hm : t.mutations.find? fun m => m.key = k with
  | some m => exact ⟨m, rfl, h.pinned k version m hread hm⟩
  | none =>
      have hkey : k ∉ t.mutations.map Mutation.key := by
        intro hmem
        obtain ⟨m, hmem', hmkey⟩ := List.mem_map.mp hmem
        have hne := List.find?_eq_none.mp hm m hmem'
        simp [hmkey] at hne
      have hunwritten : k ∈ t.unwritten :=
        List.mem_filter.mpr ⟨Transaction.mem_of_getVersion hread, by simpa using hkey⟩
      refine ⟨⟨k, t.createPrecondition k, .verify⟩, ?_, ?_⟩
      · rw [Option.none_or, List.find?_map]
        have hfind : t.unwritten.find? (fun key => key = k) = some k := by
          have hsome : (t.unwritten.find? fun key => key = k).isSome = true :=
            List.find?_isSome.mpr ⟨k, hunwritten, by simp⟩
          obtain ⟨key, hkey⟩ := Option.isSome_iff_exists.mp hsome
          obtain rfl : key = k := by simpa using List.find?_some hkey
          exact hkey
        exact Option.map_eq_some_iff.mpr ⟨k, hfind, rfl⟩
      · exact Transaction.createPrecondition_unwritten hread (h.written ▸ hkey)

/-- The backend takes the commit only on values the block has been run on. -/
theorem taken (h : Faithful s body t .return seen) {ms : List (Mutation K V)}
    (hms : t.commit = .ok ms) {next : Store K V} (hnext : s.commit ms = some next) :
    Serial body s.values next.values := by
  have hms' : ms = t.mutations ++
      t.unwritten.map fun key => ⟨key, t.createPrecondition key, .verify⟩ := by
    unfold Transaction.commit at hms
    cases herror : t.lastWriteError with
    | some code =>
        rw [herror] at hms
        cases hms
    | none =>
        rw [herror] at hms
        exact (Except.ok.inj hms).symm
  obtain ⟨-, -, hvalues, hfirst⟩ := commit_eq_some hnext
  have hbase : ∀ k version, t.getVersion k = some version → s.values k = Cell.value (seen k) := by
    intro k version hread
    obtain ⟨hversion, hholds, hpos⟩ := h.read k version hread
    refine value_of_pin hholds hpos ?_
    rw [← hversion]
    obtain ⟨m, hm, hpin⟩ := h.first_pinned hread
    rw [← hpin]
    exact hfirst k m (hms' ▸ hm)
  rw [hms', applyAll_append] at hvalues
  obtain ⟨values, happly, hverify⟩ := Option.bind_eq_some_iff.mp hvalues
  rw [applyAll_verify values _ (by simp), Option.some_inj] at hverify
  rw [hverify] at happly
  exact h.replay s.values hbase next.values happly next.values .return

end Faithful

/-! ### The runner -/

namespace TransactionRunner

/-- What an error comes to: another attempt, or giving up. -/
inductive Retried (r : TransactionRunner K V) : TransactionRunner K V → Prop
  | again (h : 0 < r.attemptsRemaining) : Retried r r.run
  | failed (code : Code) : Retried r (r.resultCallback (.error code))

/-- What a runner can come to as long as no commit has been taken. -/
inductive Outcome (r : TransactionRunner K V) : TransactionRunner K V → Prop
  | waits (phase : Phase K V) (h : phase ≠ .finished) : Outcome r { r with phase }
  | retried {r' : TransactionRunner K V} (h : Retried r r') : Outcome r r'

variable {r r' : TransactionRunner K V} {t : Transaction K V}

omit [DecidableEq K] in
theorem Retried.updateBlock (h : Retried r r') : r'.updateBlock = r.updateBlock := by
  cases h with
  | again => rfl
  | failed => rfl

omit [DecidableEq K] in
theorem Outcome.updateBlock (h : Outcome r r') : r'.updateBlock = r.updateBlock := by
  cases h with
  | waits => rfl
  | retried h => exact h.updateBlock

omit [DecidableEq K] in
theorem retried_dispatchResult (code : Code) : Retried r (r.dispatchResult t (.error code)) := by
  show Retried r (r.handleTransactionError t code)
  unfold handleTransactionError
  split
  · rename_i h
    exact .again h.1
  · exact .failed code

theorem outcome_continueCommit (status : Status) : Outcome r (r.continueCommit t status) := by
  cases status with
  | error code => exact .retried (retried_dispatchResult code)
  | ok u =>
      unfold continueCommit
      cases t.commit with
      | error code => exact .retried (retried_dispatchResult code)
      | ok mutations => exact .waits _ (by simp)

theorem outcome_proceed (rest : UpdateBlock K V) : Outcome r (r.proceed t rest) := by
  unfold proceed
  cases runBlock rest t with
  | lookup t' key next => exact .waits _ (by simp)
  | finished t' status => exact outcome_continueCommit status

theorem outcome_answered (key : K) (next : Except Code (Option V) → UpdateBlock K V)
    (cell : Cell V) : Outcome r (System.answered r t key next cell) := by
  unfold System.answered
  cases t.recordVersion key (time cell) with
  | error code => exact outcome_proceed _
  | ok t' => exact outcome_proceed _

end TransactionRunner

/-- A transaction whose writes have all been possible so far is faithful. -/
def Consistent (s : Store K V) (body : UpdateBlock K V) (t : Transaction K V)
    (rest : UpdateBlock K V) : Prop :=
  t.lastWriteError = none → ∃ seen, Faithful s body t rest seen

/-- What is known of a block that waits or has ended. -/
def Block.Ok (s : Store K V) (body : UpdateBlock K V) : Block K V → Prop
  | .lookup t key next => t.mutations = [] ∧ Consistent s body t (.getDocument key next)
  | .finished t status => status = .ok () → Consistent s body t .return

theorem Block.ok_runBlock {s : Store K V} {body : UpdateBlock K V} :
    ∀ (rest : UpdateBlock K V) (t : Transaction K V), Consistent s body t rest →
      (runBlock rest t).Ok s body := by
  intro rest
  induction rest with
  | getDocument key next ih =>
      intro t h
      unfold runBlock
      by_cases hempty : t.mutations.isEmpty = true
      · rw [if_pos hempty]
        exact ⟨List.isEmpty_iff.mp hempty, h⟩
      · rw [if_neg hempty]
        refine ih (.error .invalidArgument) t ?_
        intro hok
        obtain ⟨seen, hseen⟩ := h hok
        exact ⟨seen, hseen.readFails _⟩
  | setData key value next ih =>
      intro t h
      refine ih (t.set key value) ?_
      intro hok
      obtain ⟨seen, hseen⟩ := h hok
      exact ⟨seen, hseen.set⟩
  | updateData key value next ih =>
      intro t h
      refine ih (t.update key value) ?_
      intro hok
      obtain ⟨seen, hseen⟩ := h (Transaction.lastWriteError_update hok).1
      exact ⟨seen, hseen.update hok⟩
  | deleteDocument key next ih =>
      intro t h
      refine ih (t.delete key) ?_
      intro hok
      obtain ⟨seen, hseen⟩ := h hok
      exact ⟨seen, hseen.delete⟩
  | «return» =>
      intro t h _
      exact h
  | fail code user =>
      intro t _ hstatus
      cases hstatus

/-- What is known of a runner between two events. -/
def Phase.Ok (s : Store K V) (body : UpdateBlock K V) : Phase K V → Prop
  | .backoff => True
  | .lookup t key next => t.mutations = [] ∧ Consistent s body t (.getDocument key next)
  | .commit t mutations => t.commit = .ok mutations ∧ ∃ seen, Faithful s body t .return seen
  | .finished => True

theorem Phase.Ok.commit {s next : Store K V} {body : UpdateBlock K V} {phase : Phase K V}
    (h : phase.Ok s body) {ms : List (Mutation K V)} (hcommit : s.commit ms = some next) :
    phase.Ok next body := by
  cases phase with
  | backoff => trivial
  | lookup t key continue_ =>
      refine ⟨h.1, ?_⟩
      intro hok
      obtain ⟨seen, hseen⟩ := h.2 hok
      exact ⟨seen, hseen.commit hcommit⟩
  | commit t mutations =>
      obtain ⟨hmutations, seen, hseen⟩ := h
      exact ⟨hmutations, seen, hseen.commit hcommit⟩
  | finished => trivial

namespace TransactionRunner

variable {s : Store K V} {body rest : UpdateBlock K V} {r : TransactionRunner K V}
  {t : Transaction K V}

theorem ok_dispatchResult (status : Status) : (r.dispatchResult t status).phase.Ok s body := by
  cases status with
  | ok u => trivial
  | error code =>
      show (r.handleTransactionError t code).phase.Ok s body
      unfold handleTransactionError
      split
      · trivial
      · trivial

theorem ok_continueCommit {status : Status}
    (h : status = .ok () → Consistent s body t .return) :
    (r.continueCommit t status).phase.Ok s body := by
  cases status with
  | error code => exact ok_dispatchResult (.error code)
  | ok u =>
      unfold continueCommit
      cases hcommit : t.commit with
      | error code => exact ok_dispatchResult (.error code)
      | ok mutations =>
          refine ⟨hcommit, h rfl ?_⟩
          cases herror : t.lastWriteError with
          | none => rfl
          | some code =>
              unfold Transaction.commit at hcommit
              rw [herror] at hcommit
              cases hcommit

theorem ok_proceed (h : Consistent s body t rest) : (r.proceed t rest).phase.Ok s body := by
  have hblock := Block.ok_runBlock rest t h
  unfold proceed
  cases hrun : runBlock rest t with
  | lookup t' key next =>
      rw [hrun] at hblock
      exact hblock
  | finished t' status =>
      rw [hrun] at hblock
      exact ok_continueCommit hblock

theorem ok_answered {key : K} {next : Except Code (Option V) → UpdateBlock K V}
    (hfirst : t.mutations = []) (h : Consistent s body t (.getDocument key next)) :
    (System.answered r t key next (s.cells key)).phase.Ok s body := by
  unfold System.answered
  cases hrecord : t.recordVersion key (time (s.cells key)) with
  | error code =>
      refine ok_proceed ?_
      intro hok
      obtain ⟨seen, hseen⟩ := h hok
      exact ⟨seen, hseen.readFails code⟩
  | ok t' =>
      refine ok_proceed ?_
      intro hok
      obtain ⟨seen, hseen⟩ := h ((Transaction.lastWriteError_recordVersion hrecord).symm.trans hok)
      exact hseen.read_ok hfirst hrecord

end TransactionRunner

/-! ### Every interleaving -/

namespace System

variable [DecidableEq C]

omit [DecidableEq K] in
theorem set_runners_self (s : System C K V) (c : C) (r : TransactionRunner K V) :
    (s.set c r).runners c = r := by
  unfold set
  exact Function.update_self c r s.runners

omit [DecidableEq K] in
theorem set_runners_of_ne (s : System C K V) {c d : C} (r : TransactionRunner K V) (h : d ≠ c) :
    (s.set c r).runners d = s.runners d := by
  unfold set
  exact Function.update_of_ne h r s.runners

/-- Everything one action can do. -/
inductive Steps (s : System C K V) : System C K V → Prop
  | ignored : Steps s s
  /-- A runner goes on by itself, and no document changes. -/
  | moved (c : C) (r : TransactionRunner K V) (hphase : (s.runners c).phase ≠ .finished)
      (houtcome : TransactionRunner.Outcome (s.runners c) r)
      (hok : (s.runners c).phase.Ok s.store (s.runners c).updateBlock →
        r.phase.Ok s.store r.updateBlock) : Steps s (s.set c r)
  /-- A commit is taken, and the runner hears of it. -/
  | taken (c : C) (t : Transaction K V) (ms : List (Mutation K V)) (store : Store K V)
      (hphase : (s.runners c).phase = .commit t ms) (hstore : s.store.commit ms = some store) :
      Steps s { s.set c ((s.runners c).resultCallback (.ok ())) with
        store, taken := s.taken ++ [c] }
  /-- A commit is taken, and the runner hears of an error. -/
  | takenLost (c : C) (t : Transaction K V) (ms : List (Mutation K V)) (store : Store K V)
      (code : Code) (hphase : (s.runners c).phase = .commit t ms)
      (hstore : s.store.commit ms = some store) :
      Steps s { s.set c ((s.runners c).dispatchResult t (.error code)) with
        store, taken := s.taken ++ [c], lost := s.lost ++ [c] }

theorem steps_step (s : System C K V) (a : Action C) : Steps s (s.step a) := by
  cases a with
  | backoffElapsed c =>
      simp only [step]
      split
      · rename_i hphase
        have houtcome := TransactionRunner.outcome_proceed (r := s.runners c) (t := .new)
          (s.runners c).updateBlock
        refine .moved c _ (by simp [hphase]) houtcome ?_
        intro _
        rw [houtcome.updateBlock]
        exact TransactionRunner.ok_proceed fun _ => ⟨_, .new _ _⟩
      · exact .ignored
  | lookupAnswered c =>
      simp only [step]
      split
      · rename_i t key next hphase
        have houtcome := TransactionRunner.outcome_answered (r := s.runners c) (t := t) key next
          (s.store.cells key)
        refine .moved c _ (by simp [hphase]) houtcome ?_
        intro hok
        rw [hphase] at hok
        rw [houtcome.updateBlock]
        exact TransactionRunner.ok_answered hok.1 hok.2
      · exact .ignored
  | lookupFailed c code =>
      simp only [step]
      split
      · rename_i t key next hphase
        have houtcome := TransactionRunner.outcome_proceed (r := s.runners c) (t := t)
          (next (.error code))
        refine .moved c _ (by simp [hphase]) houtcome ?_
        intro hok
        rw [hphase] at hok
        rw [houtcome.updateBlock]
        refine TransactionRunner.ok_proceed ?_
        intro hnone
        obtain ⟨seen, hseen⟩ := hok.2 hnone
        exact ⟨seen, hseen.readFails code⟩
      · exact .ignored
  | commitTaken c =>
      simp only [step]
      split
      · rename_i t ms hphase
        split
        · rename_i store hstore
          exact .taken c t ms store hphase hstore
        · exact .ignored
      · exact .ignored
  | commitTakenAnswerLost c code =>
      simp only [step]
      split
      · rename_i t ms hphase
        split
        · rename_i store hstore
          exact .takenLost c t ms store code hphase hstore
        · exact .ignored
      · exact .ignored
  | commitFailed c code =>
      simp only [step]
      split
      · rename_i t ms hphase
        exact .moved c _ (by simp [hphase]) (.retried (TransactionRunner.retried_dispatchResult code))
          fun _ => TransactionRunner.ok_dispatchResult _
      · exact .ignored

/-- Between two actions. -/
structure Serialized (blocks : C → UpdateBlock K V) (before : K → Option V) (s : System C K V) :
    Prop where
  block : ∀ c, (s.runners c).updateBlock = blocks c
  runner : ∀ c, (s.runners c).phase.Ok s.store (blocks c)
  serial : SerialRun blocks before s.taken s.store.values

namespace Serialized

variable {blocks : C → UpdateBlock K V} {before : K → Option V} {s : System C K V}

/-- A commit that is taken runs its block on the values there are. -/
theorem commit (h : Serialized blocks before s) {c : C} {t : Transaction K V}
    {ms : List (Mutation K V)} {store : Store K V} (hphase : (s.runners c).phase = .commit t ms)
    (hstore : s.store.commit ms = some store) {r : TransactionRunner K V}
    (hblock : r.updateBlock = (s.runners c).updateBlock) (hok : r.phase.Ok store (blocks c))
    {lost : List C} :
    Serialized blocks before { s.set c r with store, taken := s.taken ++ [c], lost } where
  block := by
    intro d
    by_cases hd : d = c
    · rw [hd]
      show ((s.set c r).runners c).updateBlock = blocks c
      rw [set_runners_self, hblock]
      exact h.block c
    · show ((s.set c r).runners d).updateBlock = blocks d
      rw [set_runners_of_ne s r hd]
      exact h.block d
  runner := by
    intro d
    by_cases hd : d = c
    · rw [hd]
      show ((s.set c r).runners c).phase.Ok store (blocks c)
      rw [set_runners_self]
      exact hok
    · show ((s.set c r).runners d).phase.Ok store (blocks d)
      rw [set_runners_of_ne s r hd]
      exact (h.runner d).commit hstore
  serial := by
    have hcommit := h.runner c
    rw [hphase] at hcommit
    obtain ⟨hms, seen, hseen⟩ := hcommit
    exact .snoc h.serial (hseen.taken hms hstore)

theorem step (h : Serialized blocks before s) (a : Action C) :
    Serialized blocks before (s.step a) := by
  have hsteps := steps_step s a
  generalize s.step a = s' at hsteps ⊢
  cases hsteps with
  | ignored => exact h
  | moved c r _ houtcome hok =>
      refine ⟨?_, ?_, h.serial⟩
      · intro d
        by_cases hd : d = c
        · rw [hd, set_runners_self, houtcome.updateBlock]
          exact h.block c
        · rw [set_runners_of_ne s r hd]
          exact h.block d
      · intro d
        by_cases hd : d = c
        · rw [hd, set_runners_self]
          rw [houtcome.updateBlock, h.block c] at hok
          exact hok (h.runner c)
        · rw [set_runners_of_ne s r hd]
          exact h.runner d
  | taken c t ms store hphase hstore =>
      exact h.commit hphase hstore (r := (s.runners c).resultCallback (.ok ())) rfl trivial
  | takenLost c t ms store code hphase hstore =>
      exact h.commit hphase hstore (TransactionRunner.retried_dispatchResult code).updateBlock
        (TransactionRunner.ok_dispatchResult _)

end Serialized

theorem serialized_run (store : Store K V) (blocks : C → UpdateBlock K V) (maxAttempts : C → Nat)
    (as : List (Action C)) :
    Serialized blocks store.values (Machine.run step (start store blocks maxAttempts) as) := by
  refine Machine.run_invariant (I := Serialized blocks store.values) ?_ as _ ?_
  · intro s a h
    exact h.step a
  · exact ⟨fun _ => rfl, fun _ => trivial, .nil⟩

/-- However the transactions of all clients interleave, whatever fails and whatever is tried
again, the documents are what the blocks make of them one after the other, in the order the
backend has taken them. -/
theorem serializable (store : Store K V) (blocks : C → UpdateBlock K V) (maxAttempts : C → Nat)
    (as : List (Action C)) :
    let s := Machine.run step (start store blocks maxAttempts) as
    SerialRun blocks store.values s.taken s.store.values :=
  (serialized_run store blocks maxAttempts as).serial

/-! ### How often a transaction is tried and taken -/

/-- How things stand with a client of whose commits `taken` have been taken, `lost` of them without
an answer: nothing said yet, failure or success. -/
structure Account (maxAttempts : Nat) (r : TransactionRunner K V) (taken lost : Nat) : Prop where
  budget : r.attempts + r.attemptsRemaining = maxAttempts
  bounded : r.attempts ≤ max 1 maxAttempts
  result : (r.results = [] ∧ r.phase ≠ .finished ∧ taken = lost ∧ taken < r.attempts) ∨
    ((∃ code, r.results = [.error code]) ∧ r.phase = .finished ∧ taken = lost ∧
      taken ≤ r.attempts) ∨
    (r.results = [.ok ()] ∧ r.phase = .finished ∧ taken = lost + 1 ∧ taken ≤ r.attempts)

namespace Account

omit [DecidableEq K]

variable {maxAttempts taken lost : Nat} {r r' : TransactionRunner K V}

theorem start (body : UpdateBlock K V) (maxAttempts : Nat) :
    Account maxAttempts (.start body maxAttempts) 0 0 where
  budget := by
    show ((0 + 1 : Nat) : Int) + ((maxAttempts : Int) - 1) = maxAttempts
    omega
  bounded := le_max_left 1 maxAttempts
  result := by
    refine Or.inl ⟨rfl, ?_, rfl, Nat.one_pos⟩
    simp [TransactionRunner.start, TransactionRunner.run]

/-- What is known of a client that has not been answered. -/
theorem waiting (h : Account maxAttempts r taken lost) (hphase : r.phase ≠ .finished) :
    r.results = [] ∧ taken = lost ∧ taken < r.attempts := by
  rcases h.result with ⟨hres, -, hcount, hlt⟩ | ⟨-, hfin, -⟩ | ⟨-, hfin, -⟩
  · exact ⟨hres, hcount, hlt⟩
  · exact absurd hfin hphase
  · exact absurd hfin hphase

/-- An error, whether or not the commit it answers was taken. -/
theorem retried (h : Account maxAttempts r taken lost) (hphase : r.phase ≠ .finished)
    (hr' : TransactionRunner.Retried r r') {k : Nat} (hk : k ≤ 1) :
    Account maxAttempts r' (taken + k) (lost + k) := by
  obtain ⟨hres, hcount, hlt⟩ := h.waiting hphase
  have hbudget := h.budget
  cases hr' with
  | again hremaining =>
      refine ⟨?_, ?_, Or.inl ⟨hres, ?_, ?_, ?_⟩⟩
      · show ((r.attempts + 1 : Nat) : Int) + (r.attemptsRemaining - 1) = maxAttempts
        omega
      · show r.attempts + 1 ≤ max 1 maxAttempts
        omega
      · simp [TransactionRunner.run]
      · omega
      · show taken + k < r.attempts + 1
        omega
  | failed code =>
      refine ⟨hbudget, h.bounded, Or.inr (Or.inl ⟨⟨code, ?_⟩, rfl, ?_, ?_⟩)⟩
      · show r.results ++ [.error code] = [.error code]
        rw [hres]
        rfl
      · omega
      · show taken + k ≤ r.attempts
        omega

theorem outcome (h : Account maxAttempts r taken lost) (hphase : r.phase ≠ .finished)
    (hr' : TransactionRunner.Outcome r r') : Account maxAttempts r' taken lost := by
  cases hr' with
  | waits phase hwaits =>
      obtain ⟨hres, hcount, hlt⟩ := h.waiting hphase
      exact ⟨h.budget, h.bounded, Or.inl ⟨hres, hwaits, hcount, hlt⟩⟩
  | retried hr' => exact h.retried hphase hr' (Nat.zero_le 1)

theorem succeeded (h : Account maxAttempts r taken lost) (hphase : r.phase ≠ .finished) :
    Account maxAttempts (r.resultCallback (.ok ())) (taken + 1) lost := by
  obtain ⟨hres, hcount, hlt⟩ := h.waiting hphase
  refine ⟨h.budget, h.bounded, Or.inr (Or.inr ⟨?_, rfl, ?_, ?_⟩)⟩
  · show r.results ++ [.ok ()] = [.ok ()]
    rw [hres]
    rfl
  · omega
  · show taken + 1 ≤ r.attempts
    omega

end Account

theorem account_step {maxAttempts : C → Nat} (s : System C K V) (a : Action C)
    (h : ∀ c, Account (maxAttempts c) (s.runners c) (s.taken.count c) (s.lost.count c)) :
    ∀ c, Account (maxAttempts c) ((s.step a).runners c) ((s.step a).taken.count c)
      ((s.step a).lost.count c) := by
  intro d
  have hsteps := steps_step s a
  generalize s.step a = s' at hsteps ⊢
  cases hsteps with
  | ignored => exact h d
  | moved c r hphase houtcome _ =>
      by_cases hd : d = c
      · subst hd
        rw [set_runners_self]
        exact (h d).outcome hphase houtcome
      · rw [set_runners_of_ne s r hd]
        exact h d
  | taken c t ms store hphase hstore =>
      show Account _ ((s.set c _).runners d) ((s.taken ++ [c]).count d) (s.lost.count d)
      by_cases hd : d = c
      · subst hd
        rw [set_runners_self, List.count_append, List.count_singleton_self]
        exact (h d).succeeded (by simp [hphase])
      · rw [set_runners_of_ne s _ hd, List.count_append, List.count_singleton,
          if_neg (by simpa using Ne.symm hd)]
        exact h d
  | takenLost c t ms store code hphase hstore =>
      show Account _ ((s.set c _).runners d) ((s.taken ++ [c]).count d) ((s.lost ++ [c]).count d)
      by_cases hd : d = c
      · subst hd
        rw [set_runners_self, List.count_append, List.count_append, List.count_singleton_self]
        exact (h d).retried (by simp [hphase]) (TransactionRunner.retried_dispatchResult code)
          (Nat.le_refl 1)
      · rw [set_runners_of_ne s _ hd, List.count_append, List.count_append, List.count_singleton,
          if_neg (by simpa using Ne.symm hd)]
        exact h d

theorem account_run (store : Store K V) (blocks : C → UpdateBlock K V) (maxAttempts : C → Nat)
    (as : List (Action C)) (c : C) :
    let s := Machine.run step (start store blocks maxAttempts) as
    Account (maxAttempts c) (s.runners c) (s.taken.count c) (s.lost.count c) := by
  have hrun := Machine.run_invariant
    (I := fun s : System C K V =>
      ∀ c, Account (maxAttempts c) (s.runners c) (s.taken.count c) (s.lost.count c))
    account_step as (start store blocks maxAttempts) fun c => Account.start (blocks c) (maxAttempts c)
  exact hrun c

/-- A transaction is tried at least once and at most as often as asked for, and its result is
given at most once.  A success means that one commit was taken, besides those whose answer was
lost; a failure means that no other was. -/
theorem attempts_accounted (store : Store K V) (blocks : C → UpdateBlock K V)
    (maxAttempts : C → Nat) (as : List (Action C)) (c : C) :
    let s := Machine.run step (start store blocks maxAttempts) as
    let r := s.runners c
    r.attempts ≤ max 1 (maxAttempts c) ∧ s.taken.count c ≤ r.attempts ∧
      ((r.results = [] ∧ r.phase ≠ .finished ∧ s.taken.count c = s.lost.count c) ∨
        ((∃ code, r.results = [.error code]) ∧ r.phase = .finished ∧
          s.taken.count c = s.lost.count c) ∨
        (r.results = [.ok ()] ∧ r.phase = .finished ∧
          s.taken.count c = s.lost.count c + 1)) := by
  intro s r
  have haccount : Account (maxAttempts c) r (s.taken.count c) (s.lost.count c) :=
    account_run store blocks maxAttempts as c
  refine ⟨haccount.bounded, ?_, ?_⟩
  · rcases haccount.result with ⟨-, -, -, hlt⟩ | ⟨-, -, -, hle⟩ | ⟨-, -, -, hle⟩
    · exact Nat.le_of_lt hlt
    · exact hle
    · exact hle
  · rcases haccount.result with ⟨hres, hphase, hcount, -⟩ | ⟨hres, hphase, hcount, -⟩ |
      ⟨hres, hphase, hcount, -⟩
    · exact Or.inl ⟨hres, hphase, hcount⟩
    · exact Or.inr (Or.inl ⟨hres, hphase, hcount⟩)
    · exact Or.inr (Or.inr ⟨hres, hphase, hcount⟩)

end System

end Firebase
