/-
Read-modify-write over one shared value, without a transaction.

Each client reads the value, runs its body on what it read, and possibly writes
the result back.  The three take effect at different moments, so any number of
other clients' steps may fall in between, and the write replaces whatever is
there by then.

What survives this is `Holds`: a property that the body keeps is true of the
stored value and of every copy in flight, so a late write of an old copy cannot
break it.  What does not survive is made exact twice.  `noLoss_iff_fresh` says
when nothing a finished client recorded is ever lost, and `no_trace_iff` says
when one client's run cannot be told from its absence.
-/
import Mathlib.Logic.Function.Basic
import GoodThing.Lib.Run

namespace Rmw

open Machine

/-- Where one client stands.  What it decides is a function of what it has seen. -/
inductive Phase (V I : Type*) where
  /-- The read has been asked for. -/
  | ready (i : I)
  /-- The read failed, and the client gave up. -/
  | failed (i : I)
  /-- The value has been read; the body has not run yet. -/
  | fetched (i : I) (seen : V)
  /-- The body has run; a write, if it asked for one, is on its way. -/
  | decided (i : I) (seen : V)
  /-- The write has been applied. -/
  | written (i : I) (seen : V)

/-- What a client has read, once it has. -/
def Phase.seen? {V I : Type*} : Phase V I → Option V
  | .fetched _ v | .decided _ v | .written _ v => some v
  | _ => none

/-- The shared value and every client. -/
structure State (C V I : Type*) where
  value : V
  clients : C → Phase V I

/-- One client's next step. -/
inductive Action (C : Type*) where
  | read (c : C)
  | readFails (c : C)
  | callback (c : C)
  | write (c : C)
  deriving DecidableEq

/-- Whose step it is. -/
def Action.client {C : Type*} : Action C → C
  | .read c | .readFails c | .callback c | .write c => c

variable {C V I R : Type*}

/-- Every client is about to read, each with its own input. -/
def start (v : V) (input : C → I) : State C V I :=
  { value := v, clients := fun c => .ready (input c) }

variable [DecidableEq C]

/-- The value and where client `c` now stands. -/
def State.put (s : State C V I) (c : C) (v : V) (p : Phase V I) : State C V I :=
  { value := v, clients := Function.update s.clients c p }

@[simp] theorem State.put_value (s : State C V I) (c : C) (v : V) (p : Phase V I) :
    (s.put c v p).value = v := rfl

theorem State.put_clients (s : State C V I) (c d : C) (v : V) (p : Phase V I) :
    (s.put c v p).clients d = if d = c then p else s.clients d :=
  Function.update_apply s.clients c p d

/-- Moving a client to a phase before its write makes no new writer. -/
theorem State.written_of_put (s : State C V I) {c d : C} {v : V} {p : Phase V I}
    (hp : ∀ i seen, p ≠ .written i seen) {i : I} {seen : V}
    (h : (s.put c v p).clients d = .written i seen) : s.clients d = .written i seen := by
  rw [State.put_clients] at h
  split at h
  · exact absurd h (hp i seen)
  · exact h

/--
One step.  The body gives a result and possibly a value to write back; an action
its client is not ready for does nothing.
-/
def step (body : V → I → R × Option V) (s : State C V I) : Action C → State C V I
  | .read c =>
      match s.clients c with
      | .ready i => s.put c s.value (.fetched i s.value)
      | _ => s
  | .readFails c =>
      match s.clients c with
      | .ready i => s.put c s.value (.failed i)
      | _ => s
  | .callback c =>
      match s.clients c with
      | .fetched i seen => s.put c s.value (.decided i seen)
      | _ => s
  | .write c =>
      match s.clients c with
      | .decided i seen =>
          match (body seen i).2 with
          | some w => s.put c w (.written i seen)
          | none => s
      | _ => s

variable {body : V → I → R × Option V}

/-- Everything a step can do. -/
theorem step_cases (body : V → I → R × Option V) (s : State C V I) (a : Action C) :
    step body s a = s ∨
    (∃ c i, a = .read c ∧ s.clients c = .ready i ∧
      step body s a = s.put c s.value (.fetched i s.value)) ∨
    (∃ c i, a = .readFails c ∧ s.clients c = .ready i ∧
      step body s a = s.put c s.value (.failed i)) ∨
    (∃ c i seen, a = .callback c ∧ s.clients c = .fetched i seen ∧
      step body s a = s.put c s.value (.decided i seen)) ∨
    (∃ c i seen w, a = .write c ∧ s.clients c = .decided i seen ∧ (body seen i).2 = some w ∧
      step body s a = s.put c w (.written i seen)) := by
  cases a with
  | read c =>
      simp only [step]
      split
      · rename_i i h
        exact Or.inr (Or.inl ⟨c, i, rfl, h, rfl⟩)
      · exact Or.inl rfl
  | readFails c =>
      simp only [step]
      split
      · rename_i i h
        exact Or.inr (Or.inr (Or.inl ⟨c, i, rfl, h, rfl⟩))
      · exact Or.inl rfl
  | callback c =>
      simp only [step]
      split
      · rename_i i seen h
        exact Or.inr (Or.inr (Or.inr (Or.inl ⟨c, i, seen, rfl, h, rfl⟩)))
      · exact Or.inl rfl
  | write c =>
      simp only [step]
      split
      · rename_i i seen h
        split
        · rename_i w hw
          exact Or.inr (Or.inr (Or.inr (Or.inr ⟨c, i, seen, w, rfl, h, hw, rfl⟩)))
        · exact Or.inl rfl
      · exact Or.inl rfl

theorem step_write {s : State C V I} {c : C} {i : I} {seen w : V}
    (hc : s.clients c = .decided i seen) (hw : (body seen i).2 = some w) :
    step body s (.write c) = s.put c w (.written i seen) := by
  simp [step, hc, hw]

/-- Once the body has run on what a client has seen, neither changes any more. -/
theorem run_decided (body : V → I → R × Option V) {c : C} {i : I} {seen : V} :
    ∀ (as : List (Action C)) (s : State C V I),
      (s.clients c = .decided i seen ∨ s.clients c = .written i seen) →
      (run (step body) s as).clients c = .decided i seen ∨
        (run (step body) s as).clients c = .written i seen := by
  intro as
  induction as with
  | nil => intro s h; exact h
  | cons a rest ih =>
      intro s h
      refine ih _ ?_
      rcases step_cases body s a with
        heq | ⟨d, j, -, hd, heq⟩ | ⟨d, j, -, hd, heq⟩ | ⟨d, j, v, -, hd, heq⟩ |
          ⟨d, j, v, w, -, hd, -, heq⟩
      · rw [heq]; exact h
      all_goals rw [heq, State.put_clients]
      -- The moving client is another one, except where `c` itself writes.
      · have hne : c ≠ d := by intro hcd; rw [hcd, hd] at h; simp at h
        rw [if_neg hne]; exact h
      · have hne : c ≠ d := by intro hcd; rw [hcd, hd] at h; simp at h
        rw [if_neg hne]; exact h
      · have hne : c ≠ d := by intro hcd; rw [hcd, hd] at h; simp at h
        rw [if_neg hne]; exact h
      · by_cases hcd : c = d
        · subst hcd
          rw [hd] at h
          have heq' : j = i ∧ v = seen := by simpa using h
          rw [if_pos rfl, heq'.1, heq'.2]
          exact Or.inr rfl
        · rw [if_neg hcd]; exact h

/-! ### A property the body keeps is true of every copy -/

/-- `P` holds of the stored value and of everything any client has read. -/
structure Holds (P : V → Prop) (s : State C V I) : Prop where
  value : P s.value
  seen : ∀ c v, (s.clients c).seen? = some v → P v

omit [DecidableEq C] in
theorem holds_start {P : V → Prop} {v : V} (hv : P v) (input : C → I) :
    Holds P (start v input) := by
  refine ⟨hv, ?_⟩
  intro c w hw
  simp [start, Phase.seen?] at hw

/-- Storing a good value and moving one client to a good phase keeps `Holds`. -/
theorem Holds.put {P : V → Prop} {s : State C V I} (h : Holds P s) (c : C) {v : V}
    {p : Phase V I} (hv : P v) (hp : ∀ w, p.seen? = some w → P w) : Holds P (s.put c v p) := by
  refine ⟨hv, ?_⟩
  intro d w hw
  rw [State.put_clients] at hw
  split at hw
  · exact hp w hw
  · exact h.seen d w hw

theorem step_holds {P : V → Prop} (hbody : ∀ v i w, P v → (body v i).2 = some w → P w)
    (s : State C V I) (a : Action C) (h : Holds P s) : Holds P (step body s a) := by
  rcases step_cases body s a with
    heq | ⟨c, i, -, -, heq⟩ | ⟨c, i, -, -, heq⟩ | ⟨c, i, seen, -, hc, heq⟩ |
      ⟨c, i, seen, w, -, hc, hw, heq⟩
  · rw [heq]; exact h
  · rw [heq]
    refine h.put c h.value ?_
    intro v hv
    rw [← Option.some.inj hv]
    exact h.value
  · rw [heq]
    exact h.put c h.value (by simp [Phase.seen?])
  · rw [heq]
    refine h.put c h.value ?_
    intro v hv
    rw [← Option.some.inj hv]
    exact h.seen c seen (by rw [hc]; rfl)
  · rw [heq]
    have hseen : P seen := h.seen c seen (by rw [hc]; rfl)
    refine h.put c (hbody seen i w hseen hw) ?_
    intro v hv
    rw [← Option.some.inj hv]
    exact hseen

/-- What the body keeps holds of the value, and of every copy, all along every run. -/
theorem always_holds {P : V → Prop} (hbody : ∀ v i w, P v → (body v i).2 = some w → P w)
    {v : V} (hv : P v) (input : C → I) (as : List (Action C)) :
    Always (step body) (Holds P) (start v input) as :=
  always_of_invariant (step_holds hbody) (holds_start hv input) as

/-! ### When nothing a finished client recorded is lost

A value *records* some inputs.  The body of a successful client adds its own input
to what it read and drops nothing.  Even so a write drops whatever was recorded
since its client's read, and `noLoss_iff_fresh` says that this is the only way a
successful client's record is ever lost.
-/

section NoLoss

variable {records : V → I → Prop} {success : R → Prop}

/-- The body writes back what it read, and its own input too on success. -/
def Recorder (body : V → I → R × Option V) (records : V → I → Prop)
    (success : R → Prop) : Prop :=
  ∀ v i w, (body v i).2 = some w →
    ∀ j, records w j ↔ records v j ∨ (j = i ∧ success (body v i).1)

/-- Some client has successfully written `i` back. -/
def Recorded (body : V → I → R × Option V) (success : R → Prop) (s : State C V I) (i : I) :
    Prop :=
  ∃ c seen, s.clients c = .written i seen ∧ success (body seen i).1

/-- What was successfully written back is still recorded. -/
def NoLoss (body : V → I → R × Option V) (records : V → I → Prop) (success : R → Prop)
    (s : State C V I) : Prop :=
  ∀ i, Recorded body success s i → records s.value i

/-- What is stored when a write is applied was read by its client, or is its own input. -/
def Fresh (body : V → I → R × Option V) (records : V → I → Prop) (success : R → Prop)
    (s : State C V I) (a : Action C) : Prop :=
  ∀ c i seen, a = .write c → s.clients c = .decided i seen → (body seen i).2 ≠ none →
    ∀ j, records s.value j → records seen j ∨ (j = i ∧ success (body seen i).1)

/-- A client that has written stays where it is. -/
theorem written_stays {s : State C V I} {c : C} {i : I} {seen : V}
    (h : s.clients c = .written i seen) (a : Action C) :
    (step body s a).clients c = .written i seen := by
  rcases step_cases body s a with
    heq | ⟨d, j, -, hd, heq⟩ | ⟨d, j, -, hd, heq⟩ | ⟨d, j, v, -, hd, heq⟩ |
      ⟨d, j, v, w, -, hd, -, heq⟩
  · rw [heq]; exact h
  all_goals
    have hne : c ≠ d := by
      intro hcd
      rw [← hcd, h] at hd
      cases hd
    rw [heq, State.put_clients, if_neg hne]
    exact h

theorem Recorded.step {s : State C V I} {i : I} (h : Recorded body success s i)
    (a : Action C) : Recorded body success (step body s a) i := by
  obtain ⟨c, seen, hc, hs⟩ := h
  exact ⟨c, seen, written_stays hc a, hs⟩

/-- Everything recorded anywhere was there at the start or comes from a client. -/
def Origin (body : V → I → R × Option V) (records : V → I → Prop) (success : R → Prop)
    (v₀ : V) (s : State C V I) : Prop :=
  Holds (fun v => ∀ j, records v j → records v₀ j ∨ Recorded body success s j) s

theorem step_origin (hb : Recorder body records success) {v₀ : V} (s : State C V I)
    (a : Action C) (h : Origin body records success v₀ s) :
    Origin body records success v₀ (step body s a) := by
  -- What came from a client still does; the copies that exist already stay accounted for.
  have hold : Holds (fun v => ∀ j, records v j →
      records v₀ j ∨ Recorded body success (step body s a) j) s :=
    ⟨fun j hj => (h.value j hj).imp_right fun hr => hr.step a,
      fun c v hv j hj => (h.seen c v hv j hj).imp_right fun hr => hr.step a⟩
  unfold Origin
  rcases step_cases body s a with
    heq | ⟨c, i, -, -, heq⟩ | ⟨c, i, -, -, heq⟩ | ⟨c, i, seen, -, hc, heq⟩ |
      ⟨c, i, seen, w, -, hc, hw, heq⟩
  · rw [heq]; exact h
  · nth_rewrite 2 [heq]
    refine hold.put c hold.value ?_
    intro v hv
    rw [← Option.some.inj hv]
    exact hold.value
  · nth_rewrite 2 [heq]
    exact hold.put c hold.value (by simp [Phase.seen?])
  · nth_rewrite 2 [heq]
    refine hold.put c hold.value ?_
    intro v hv
    rw [← Option.some.inj hv]
    exact hold.seen c seen (by rw [hc]; rfl)
  · have hseen := hold.seen c seen (by rw [hc]; rfl)
    nth_rewrite 2 [heq]
    refine hold.put c ?_ ?_
    · intro j hj
      rcases (hb seen i w hw j).mp hj with hs | ⟨rfl, hs⟩
      · exact hseen j hs
      · exact Or.inr ⟨c, seen, by rw [heq, State.put_clients, if_pos rfl], hs⟩
    · intro v hv
      rw [← Option.some.inj hv]
      exact hseen

/-- A step loses nothing exactly when it is not a write that drops something. -/
theorem noLoss_step_iff (hb : Recorder body records success) {v₀ : V} {s : State C V I}
    {a : Action C} (horig : Origin body records success v₀ s)
    (hbase : Holds (fun v => ∀ j, records v₀ j → records v j) s)
    (hs : NoLoss body records success s) :
    NoLoss body records success (step body s a) ↔ Fresh body records success s a := by
  by_cases hw : ∃ c i seen w, a = .write c ∧ s.clients c = .decided i seen ∧
      (body seen i).2 = some w
  · obtain ⟨c, i, seen, w, rfl, hc, hw⟩ := hw
    have heq := step_write (s := s) (c := c) hc hw
    refine ⟨?_, ?_⟩
    · intro h c' i' seen' ha hc' _ j hj
      obtain rfl : c = c' := by simpa using ha
      rw [hc] at hc'
      simp only [Phase.decided.injEq] at hc'
      obtain ⟨rfl, rfl⟩ := hc'
      rw [← hb seen i w hw j]
      rcases horig.value j hj with h0 | hrec
      · exact (hb seen i w hw j).mpr (Or.inl (hbase.seen c seen (by rw [hc]; rfl) j h0))
      · have := h j (hrec.step _)
        rwa [heq, State.put_value] at this
    · intro hfresh j hj
      rw [heq] at hj ⊢
      obtain ⟨d, v, hd, hv⟩ := hj
      rw [State.put_value, hb seen i w hw j]
      rw [State.put_clients] at hd
      split at hd
      · simp only [Phase.written.injEq] at hd
        obtain ⟨rfl, rfl⟩ := hd
        exact Or.inr ⟨rfl, hv⟩
      · exact hfresh c i seen rfl hc (by simp [hw]) j (hs j ⟨d, v, hd, hv⟩)
  · -- No write takes effect, so neither the value nor the list of writers changes.
    have hfresh : Fresh body records success s a := by
      intro c i seen ha hc hne
      obtain ⟨w, hsome⟩ := Option.ne_none_iff_exists'.mp hne
      exact absurd ⟨c, i, seen, w, ha, hc, hsome⟩ hw
    have hquiet : (step body s a).value = s.value ∧ ∀ d i v,
        (step body s a).clients d = .written i v → s.clients d = .written i v := by
      rcases step_cases body s a with
        heq | ⟨c, i, -, -, heq⟩ | ⟨c, i, -, -, heq⟩ | ⟨c, i, seen, -, -, heq⟩ |
          ⟨c, i, seen, w, ha, hc, hsome, -⟩
      · rw [heq]; exact ⟨rfl, fun _ _ _ hd => hd⟩
      · rw [heq]; exact ⟨rfl, fun d i v hd => s.written_of_put (by simp) hd⟩
      · rw [heq]; exact ⟨rfl, fun d i v hd => s.written_of_put (by simp) hd⟩
      · rw [heq]; exact ⟨rfl, fun d i v hd => s.written_of_put (by simp) hd⟩
      · exact absurd ⟨c, i, seen, w, ha, hc, hsome⟩ hw
    refine ⟨fun _ => hfresh, ?_⟩
    intro _ j hj
    obtain ⟨d, v, hd, hv⟩ := hj
    rw [hquiet.1]
    exact hs j ⟨d, v, hquiet.2 d j v hd, hv⟩

/-- Nothing is lost in a run exactly when no write of it drops a record. -/
theorem noLoss_iff_fresh (hb : Recorder body records success) (v : V) (input : C → I)
    (as : List (Action C)) :
    Always (step body) (NoLoss body records success) (start v input) as ↔
      Guarded (step body) (Fresh body records success) (start v input) as := by
  refine always_iff_guarded
    (J := fun s => Origin body records success v s ∧
      Holds (fun w => ∀ j, records v j → records w j) s) ?_ ?_ as ⟨?_, ?_⟩ ?_
  · intro s a hJ
    obtain ⟨ho, hh⟩ := hJ
    refine ⟨step_origin hb s a ho, step_holds ?_ s a hh⟩
    intro u i w hu hw j hj
    exact (hb u i w hw j).mpr (Or.inl (hu j hj))
  · intro s a hJ hs
    exact noLoss_step_iff hb hJ.1 hJ.2 hs
  · exact holds_start (fun j hj => Or.inl hj) input
  · exact holds_start (fun j hj => hj) input
  · intro j hj
    obtain ⟨c, seen, hc, -⟩ := hj
    simp [start] at hc

end NoLoss

/-! ### When one client leaves no trace -/

/-- A write of `c` is redundant: the value it writes is the one stored. -/
def Redundant (body : V → I → R × Option V) (c : C) (s : State C V I) (a : Action C) : Prop :=
  ∀ i seen w, a = .write c → s.clients c = .decided i seen → (body seen i).2 = some w →
    s.value = w

/-- The two states differ at most in where `c` stands. -/
structure AgreeOff (c : C) (s t : State C V I) : Prop where
  value : s.value = t.value
  others : ∀ d, d ≠ c → s.clients d = t.clients d

theorem AgreeOff.put_both {c d : C} {s t : State C V I} (h : AgreeOff c s t) (v : V)
    (p : Phase V I) : AgreeOff c (s.put d v p) (t.put d v p) := by
  refine ⟨rfl, ?_⟩
  intro e he
  rw [State.put_clients, State.put_clients]
  split
  · rfl
  · exact h.others e he

theorem AgreeOff.put_left {c : C} {s t : State C V I} (h : AgreeOff c s t) {v : V}
    (hv : v = t.value) (p : Phase V I) : AgreeOff c (s.put c v p) t := by
  refine ⟨hv, ?_⟩
  intro e he
  rw [State.put_clients, if_neg he]
  exact h.others e he

/-- Another client's step does the same in both states. -/
theorem agreeOff_step {c : C} {s t : State C V I} (h : AgreeOff c s t) {a : Action C}
    (ha : a.client ≠ c) : AgreeOff c (step body s a) (step body t a) := by
  have hcl : s.clients a.client = t.clients a.client := h.others _ ha
  cases a with
  | read d | readFails d | callback d =>
      simp only [step, Action.client] at hcl ⊢
      rw [hcl, h.value]
      split
      · exact h.put_both _ _
      · exact h
  | write d =>
      simp only [step, Action.client] at hcl ⊢
      rw [hcl]
      split
      · split
        · exact h.put_both _ _
        · exact h
      · exact h

/-- A step of `c` itself is not noticed as long as it writes nothing new. -/
theorem agreeOff_own {c : C} {s t : State C V I} (h : AgreeOff c s t) {a : Action C}
    (ha : a.client = c) (hred : Redundant body c s a) : AgreeOff c (step body s a) t := by
  rcases step_cases body s a with
    heq | ⟨d, i, rfl, -, heq⟩ | ⟨d, i, rfl, -, heq⟩ | ⟨d, i, seen, rfl, -, heq⟩ |
      ⟨d, i, seen, w, rfl, hd, hw, heq⟩
  · rw [heq]; exact h
  all_goals
    obtain rfl : d = c := ha
    rw [heq]
  · exact h.put_left h.value _
  · exact h.put_left h.value _
  · exact h.put_left h.value _
  · exact h.put_left (by rw [← hred i seen w rfl hd hw]; exact h.value) _

/--
The stored value is at every moment what the other clients alone would have made
it, exactly when every write of `c` is redundant.
-/
theorem no_trace_iff (c : C) (s : State C V I) (as : List (Action C)) :
    (∀ pre, pre <+: as → (run (step body) s pre).value
        = (run (step body) s (pre.filter fun a => a.client ≠ c)).value) ↔
      Guarded (step body) (Redundant body c) s as := by
  refine erase_iff (R := AgreeOff c) (fun s t h => h.value) ?_ ?_ ?_ as ⟨rfl, fun _ _ => rfl⟩
  · intro s t a ha h
    have hne : a.client ≠ c := by simpa using ha
    refine ⟨agreeOff_step h hne, ?_⟩
    intro i seen w heq _ _
    exact absurd (by rw [heq]; rfl) hne
  · intro s t a ha h hg
    exact agreeOff_own h (by simpa using ha) hg
  · intro s t a _ h hobs i seen w heq hd hw
    rw [heq] at hobs
    rw [h.value, ← hobs, step_write hd hw, State.put_value]

end Rmw
