/-
A store that remembers when each item was last written.

Writes come in groups that are taken as a whole or not at all, and each of them may ask for
something of the item it writes: that it exists, that it does not, or that it was last
written at a certain time.  No two groups have the same time, so an item that still has the
time it was read with still has the value it was read with.

A client that reads, computes and then sends its writes has therefore worked on the store as
it is now, if the first write of every item it has read asks for the time it was read with.
-/
import Mathlib.Logic.Function.Basic
import Mathlib.Data.List.Basic

namespace Versioned

variable {K V : Type} [DecidableEq K]

/-- A value and the time it was written. -/
abbrev Cell (V : Type) := Option (V × Nat)

/-- Time `0` is never used: it stands for an item that does not exist. -/
structure Store (K V : Type) where
  cells : K → Cell V
  now : Nat
  pos : 0 < now
  past : ∀ k x, cells k = some x → 0 < x.2 ∧ x.2 < now

inductive Precondition where
  | none
  | «exists» (exists_ : Bool)
  | updateTime (time : Nat)
  deriving DecidableEq

def Precondition.isValidFor (p : Precondition) (cell : Cell V) : Bool :=
  match p with
  | .none => true
  | .exists exists_ => cell.isSome == exists_
  | .updateTime time => cell.any fun x => x.2 == time

inductive Change (V : Type) where
  | set (value : Option V → V)
  /-- A change of an item that exists. -/
  | update (value : V → V)
  | delete
  | verify

structure Mutation (K V : Type) where
  key : K
  precondition : Precondition
  change : Change V

/-! ### Values alone -/

/-- The values after one change; an item that does not exist cannot be updated. -/
def Change.apply (change : Change V) (value : Option V) : Option (Option V) :=
  match change, value with
  | .set f, value => some (some (f value))
  | .update f, some value => some (some (f value))
  | .update _, none => none
  | .delete, _ => some none
  | .verify, value => some value

def applyTo (values : K → Option V) (m : Mutation K V) : Option (K → Option V) :=
  (m.change.apply (values m.key)).map (Function.update values m.key)

def applyAll (values : K → Option V) (ms : List (Mutation K V)) : Option (K → Option V) :=
  ms.foldlM applyTo values

theorem applyAll_append (values : K → Option V) (ms rest : List (Mutation K V)) :
    applyAll values (ms ++ rest) = (applyAll values ms).bind fun values => applyAll values rest :=
  List.foldlM_append

/-- Verifying changes nothing. -/
theorem applyAll_verify (values : K → Option V) : ∀ (ms : List (Mutation K V)),
    (∀ m ∈ ms, m.change = .verify) → applyAll values ms = some values := by
  intro ms
  induction ms with
  | nil => intro _; rfl
  | cons m ms ih =>
      intro h
      have hm : applyTo values m = some values := by
        unfold applyTo
        rw [h m List.mem_cons_self]
        show some (Function.update values m.key (values m.key)) = some values
        rw [Function.update_eq_self]
      show (applyTo values m >>= fun values => applyAll values ms) = some values
      rw [hm]
      exact ih fun m hm => h m (List.mem_cons_of_mem _ hm)

/-! ### A group of writes -/

def Cell.value (cell : Cell V) : Option V := cell.map Prod.fst

namespace Store

def values (s : Store K V) : K → Option V := fun k => Cell.value (s.cells k)

/-- One write at time `now`; one that verifies leaves the time as well. -/
def write (now : Nat) (cells : K → Cell V) (m : Mutation K V) : Option (K → Cell V) :=
  if m.precondition.isValidFor (cells m.key) then
    match m.change with
    | .verify => some cells
    | change =>
        (change.apply (Cell.value (cells m.key))).map fun value =>
          Function.update cells m.key (value.map fun v => (v, now))
  else none

def writeAll (now : Nat) (cells : K → Cell V) (ms : List (Mutation K V)) : Option (K → Cell V) :=
  ms.foldlM (write now) cells

/-- What one write does: nothing but to its own item, and that at time `now`. -/
theorem write_eq_some {now : Nat} {cells next : K → Cell V} {m : Mutation K V}
    (h : write now cells m = some next) :
    m.precondition.isValidFor (cells m.key) = true ∧ (∀ k, k ≠ m.key → next k = cells k) ∧
      (next m.key = cells m.key ∨ next m.key = none ∨ ∃ v, next m.key = some (v, now)) ∧
      applyTo (fun k => Cell.value (cells k)) m = some fun k => Cell.value (next k) := by
  unfold write at h
  by_cases hvalid : m.precondition.isValidFor (cells m.key) = true
  · rw [if_pos hvalid] at h
    refine ⟨hvalid, ?_⟩
    -- A change that writes: the item becomes `value` at time `now`.
    have hwrite : ∀ value, m.change.apply (Cell.value (cells m.key)) = some value →
        next = Function.update cells m.key (value.map fun v => (v, now)) →
        (∀ k, k ≠ m.key → next k = cells k) ∧
          (next m.key = cells m.key ∨ next m.key = none ∨ ∃ v, next m.key = some (v, now)) ∧
          applyTo (fun k => Cell.value (cells k)) m = some fun k => Cell.value (next k) := by
      rintro value hvalue rfl
      refine ⟨fun k hk => Function.update_of_ne hk _ _, ?_, ?_⟩
      · rw [Function.update_self]
        cases value with
        | none => exact Or.inr (Or.inl rfl)
        | some v => exact Or.inr (Or.inr ⟨v, rfl⟩)
      · unfold applyTo
        rw [hvalue, Option.map_some]
        congr 1
        funext k
        by_cases hk : k = m.key
        · rw [hk, Function.update_self, Function.update_self]
          cases value with
          | none => rfl
          | some v => rfl
        · rw [Function.update_of_ne hk, Function.update_of_ne hk]
    cases hchange : m.change with
    | verify =>
        rw [hchange] at h
        obtain rfl := Option.some_inj.mp h
        refine ⟨fun _ _ => rfl, Or.inl rfl, ?_⟩
        unfold applyTo
        rw [hchange]
        exact congrArg some (Function.update_eq_self m.key fun k => Cell.value (cells k))
    | set f =>
        rw [hchange] at h hwrite
        obtain ⟨value, hvalue, hnext⟩ := Option.map_eq_some_iff.mp h
        exact hwrite value hvalue hnext.symm
    | update f =>
        rw [hchange] at h hwrite
        obtain ⟨value, hvalue, hnext⟩ := Option.map_eq_some_iff.mp h
        exact hwrite value hvalue hnext.symm
    | delete =>
        rw [hchange] at h hwrite
        obtain ⟨value, hvalue, hnext⟩ := Option.map_eq_some_iff.mp h
        exact hwrite value hvalue hnext.symm
  · rw [if_neg hvalid] at h
    cases h

/-- What all of them do. -/
theorem writeAll_eq_some {now : Nat} : ∀ {ms : List (Mutation K V)} {cells next : K → Cell V},
    writeAll now cells ms = some next →
    (∀ k, next k = cells k ∨ next k = none ∨ ∃ v, next k = some (v, now)) ∧
      applyAll (fun k => Cell.value (cells k)) ms = some (fun k => Cell.value (next k)) ∧
      ∀ k m, ms.find? (fun m => m.key = k) = some m → m.precondition.isValidFor (cells k) = true := by
  intro ms
  induction ms with
  | nil =>
      intro cells next h
      obtain rfl := Option.some_inj.mp h
      exact ⟨fun k => Or.inl rfl, rfl, fun k m hm => by cases hm⟩
  | cons m rest ih =>
      intro cells next h
      obtain ⟨mid, hmid, hrest⟩ := Option.bind_eq_some_iff.mp h
      obtain ⟨hvalid, hframe, hself, happly⟩ := write_eq_some hmid
      obtain ⟨hcells, hvalues, hfirst⟩ := ih hrest
      refine ⟨?_, ?_, ?_⟩
      · intro k
        rcases hcells k with hk | hk | hk
        · rw [hk]
          by_cases heq : k = m.key
          · rw [heq]
            exact hself
          · exact Or.inl (hframe k heq)
        · exact Or.inr (Or.inl hk)
        · exact Or.inr (Or.inr hk)
      · show (applyTo _ m >>= fun values => applyAll values rest) = _
        rw [happly]
        exact hvalues
      · -- The first write of an item finds it as it was.
        intro k m' hm'
        by_cases heq : m.key = k
        · rw [List.find?_cons_of_pos (by simpa using heq)] at hm'
          obtain rfl := Option.some_inj.mp hm'
          rw [← heq]
          exact hvalid
        · rw [List.find?_cons_of_neg (by simpa using heq)] at hm'
          rw [← hframe k (Ne.symm heq)]
          exact hfirst k m' hm'

/-- A group of writes, at a time of its own; `none` if one of them is not taken. -/
def commit (s : Store K V) (ms : List (Mutation K V)) : Option (Store K V) :=
  (writeAll s.now s.cells ms).pmap
    (fun cells h => { cells, now := s.now + 1, pos := Nat.succ_pos _, past := h })
    (by
      intro cells h k x hx
      rcases (writeAll_eq_some h).1 k with hk | hk | ⟨v, hk⟩
      · have hpast := s.past k x (hk ▸ hx)
        exact ⟨hpast.1, Nat.lt_succ_of_lt hpast.2⟩
      · rw [hk] at hx
        cases hx
      · rw [hk] at hx
        obtain rfl := Option.some_inj.mp hx
        exact ⟨s.pos, Nat.lt_succ_self _⟩)

theorem commit_eq_some {s next : Store K V} {ms : List (Mutation K V)}
    (h : s.commit ms = some next) : next.now = s.now + 1 ∧
      (∀ k, next.cells k = s.cells k ∨ next.cells k = none ∨
        ∃ v, next.cells k = some (v, s.now)) ∧
      applyAll s.values ms = some next.values ∧
      ∀ k m, ms.find? (fun m => m.key = k) = some m →
        m.precondition.isValidFor (s.cells k) = true := by
  obtain ⟨cells, hpast, hcells, rfl⟩ := Option.pmap_eq_some_iff.mp h
  obtain ⟨hcell, hvalues, hfirst⟩ := writeAll_eq_some hcells
  exact ⟨rfl, hcell, hvalues, hfirst⟩

/-! ### Reads that hold -/

/-- What was read of an item is what it has, if it still has the time it was read with. -/
def Holds (s : Store K V) (k : K) (seen : Cell V) : Prop :=
  ∀ x, seen = some x → x.2 < s.now ∧ ∀ v, s.cells k = some (v, x.2) → v = x.1

omit [DecidableEq K] in
theorem holds_self (s : Store K V) (k : K) : Holds s k (s.cells k) := by
  intro x hx
  refine ⟨(s.past k x hx).2, ?_⟩
  intro v hv
  rw [hx, Option.some_inj] at hv
  exact congrArg Prod.fst hv.symm

/-- It stays so, whatever is written. -/
theorem Holds.commit {s next : Store K V} {k : K} {seen : Cell V} (h : Holds s k seen)
    {ms : List (Mutation K V)} (hcommit : s.commit ms = some next) : Holds next k seen := by
  obtain ⟨hnow, hcells, -, -⟩ := commit_eq_some hcommit
  intro x hx
  obtain ⟨hlt, hsame⟩ := h x hx
  refine ⟨by omega, ?_⟩
  intro v hv
  rcases hcells k with hk | hk | ⟨w, hk⟩
  · exact hsame v (hk ▸ hv)
  · rw [hk] at hv
    cases hv
  · rw [hk, Option.some_inj] at hv
    have htime : s.now = x.2 := congrArg Prod.snd hv
    omega

/-- The time an item was read with; `0` if it was not there. -/
def time (cell : Cell V) : Nat := cell.elim 0 Prod.snd

/-- What a write asks for so that a read still holds. -/
def pin (time : Nat) : Precondition := if time = 0 then .exists false else .updateTime time

omit [DecidableEq K] in
/-- An item that has the time of a read has the value that was read. -/
theorem value_of_time {s : Store K V} {k : K} {seen : Cell V} (h : Holds s k seen)
    (hseen : ∀ x, seen = some x → 0 < x.2) (htime : time (s.cells k) = time seen) :
    s.values k = Cell.value seen := by
  unfold values
  cases hcell : s.cells k with
  | none =>
      cases seen with
      | none => rfl
      | some x =>
          have hpos := hseen x rfl
          rw [hcell] at htime
          have hzero : 0 = x.2 := htime
          omega
  | some y =>
      rw [hcell] at htime
      cases seen with
      | none =>
          have hpos := (s.past k y hcell).1
          have hzero : y.2 = 0 := htime
          omega
      | some x =>
          have hsame : y.2 = x.2 := htime
          refine congrArg some ((h x rfl).2 y.1 ?_)
          rw [hcell, ← hsame]

omit [DecidableEq K] in
/-- An item is as asked for exactly when it has the time asked for. -/
theorem isValidFor_pin {s : Store K V} {k : K} {t : Nat} (h : (pin t).isValidFor (s.cells k) = true) :
    time (s.cells k) = t := by
  unfold pin at h
  by_cases hzero : t = 0
  · rw [if_pos hzero] at h
    have hnone : (s.cells k).isSome = false := by simpa [Precondition.isValidFor] using h
    rw [Option.not_isSome_iff_eq_none.mp (Bool.eq_false_iff.mp hnone), hzero]
    rfl
  · rw [if_neg hzero] at h
    have hany : (s.cells k).any (fun y => y.2 == t) = true := h
    obtain ⟨y, hy, hyt⟩ := Option.any_eq_true _ _ |>.mp hany
    rw [hy]
    exact beq_iff_eq.mp hyt

omit [DecidableEq K] in
/-- A write that is taken with the time of a read finds the value that was read. -/
theorem value_of_pin {s : Store K V} {k : K} {seen : Cell V} (h : Holds s k seen)
    (hseen : ∀ x, seen = some x → 0 < x.2)
    (hpin : (pin (time seen)).isValidFor (s.cells k) = true) :
    s.values k = Cell.value seen :=
  value_of_time h hseen (isValidFor_pin hpin)

end Store

end Versioned
