/-
Runs of a deterministic machine.

Shared state is changed by a step function `S → A → S`, and one interleaving of
the parties is one list of actions, in the order they took effect.  A property of
every interleaving is then a property of every list.

Three rules are all the development uses.  `always_of_invariant` is the usual
induction, and `always_of_guarded` the same for steps that meet a condition.
`always_iff_guarded` is for a property that is *not* preserved: it
says exactly which runs keep it, by naming the condition each step has to meet.
`erase_iff` compares a run with the same run less some of its actions, which is
what "this party leaves no trace" means.
-/
import Mathlib.Data.List.Basic
import Mathlib.Data.List.Infix

namespace Machine

variable {S A O : Type*} (step : S → A → S)

/-- The state after a list of actions. -/
def run (s : S) (as : List A) : S := as.foldl step s

@[simp] theorem run_nil (s : S) : run step s [] = s := rfl

@[simp] theorem run_cons (s : S) (a : A) (as : List A) :
    run step s (a :: as) = run step (step s a) as := rfl

theorem run_append (s : S) (as bs : List A) :
    run step s (as ++ bs) = run step (run step s as) bs := List.foldl_append

/-- `P` holds in every state the run passes through, first and last included. -/
def Always (P : S → Prop) (s : S) (as : List A) : Prop :=
  ∀ pre, pre <+: as → P (run step s pre)

/-- Every action of the run is taken in a state that admits it. -/
def Guarded (G : S → A → Prop) (s : S) (as : List A) : Prop :=
  ∀ pre a, pre ++ [a] <+: as → G (run step s pre) a

variable {step}

@[simp] theorem always_nil {P : S → Prop} {s : S} : Always step P s [] ↔ P s := by
  refine ⟨fun h => h [] (List.prefix_refl []), ?_⟩
  intro h pre hpre
  rw [List.prefix_nil.mp hpre]
  exact h

theorem always_cons {P : S → Prop} {s : S} {a : A} {as : List A} :
    Always step P s (a :: as) ↔ P s ∧ Always step P (step s a) as := by
  refine ⟨fun h => ⟨h [] List.nil_prefix, fun pre hpre => ?_⟩, fun ⟨h0, h⟩ pre hpre => ?_⟩
  · exact h (a :: pre) ((List.prefix_cons_inj a).mpr hpre)
  · rcases List.prefix_cons_iff.mp hpre with rfl | ⟨rest, rfl, hrest⟩
    · exact h0
    · exact h rest hrest

@[simp] theorem guarded_nil {G : S → A → Prop} {s : S} : Guarded step G s [] := by
  intro pre a h
  simp at h

theorem guarded_cons {G : S → A → Prop} {s : S} {a : A} {as : List A} :
    Guarded step G s (a :: as) ↔ G s a ∧ Guarded step G (step s a) as := by
  refine ⟨fun h => ⟨h [] a (by simp), fun pre b hpre => ?_⟩, fun ⟨h0, h⟩ pre b hpre => ?_⟩
  · exact h (a :: pre) b (by simpa using hpre)
  · cases pre with
    | nil =>
        obtain rfl : b = a := by simpa using hpre
        exact h0
    | cons c rest =>
        obtain ⟨rfl, hrest⟩ : c = a ∧ rest ++ [b] <+: as := by simpa using hpre
        exact h rest b hrest

/-- A run that is not guarded has a first step that misses its guard. -/
theorem exists_unguarded {G : S → A → Prop} :
    ∀ {as : List A} {s : S}, ¬ Guarded step G s as →
      ∃ pre a, pre ++ [a] <+: as ∧ Guarded step G s pre ∧ ¬ G (run step s pre) a := by
  intro as
  induction as with
  | nil => intro s h; exact absurd guarded_nil h
  | cons a rest ih =>
      intro s h
      by_cases hg : G s a
      · have hrest : ¬ Guarded step G (step s a) rest :=
          fun hrest => h (guarded_cons.mpr ⟨hg, hrest⟩)
        obtain ⟨pre, b, hpre, hguard, hb⟩ := ih hrest
        refine ⟨a :: pre, b, ?_, guarded_cons.mpr ⟨hg, hguard⟩, hb⟩
        rw [List.cons_append, List.prefix_cons_inj]
        exact hpre
      · exact ⟨[], a, by simp, guarded_nil, hg⟩

theorem guarded_congr {G H : S → A → Prop} (h : ∀ s a, G s a ↔ H s a) {s : S} {as : List A} :
    Guarded step G s as ↔ Guarded step H s as :=
  ⟨fun hG pre a hpre => (h _ a).mp (hG pre a hpre),
    fun hH pre a hpre => (h _ a).mpr (hH pre a hpre)⟩

/-- The last state is one of the states passed through. -/
theorem Always.last {P : S → Prop} {s : S} {as : List A} (h : Always step P s as) :
    P (run step s as) := h as (List.prefix_refl as)

/-! ### Invariants -/

theorem run_invariant {I : S → Prop} (hstep : ∀ s a, I s → I (step s a)) :
    ∀ (as : List A) (s : S), I s → I (run step s as) := by
  intro as
  induction as with
  | nil => intro s h; exact h
  | cons a rest ih => intro s h; exact ih _ (hstep s a h)

/-- The same for runs made of certain actions only. -/
theorem run_invariant_of_mem {I : S → Prop} {G : A → Prop}
    (hstep : ∀ s a, G a → I s → I (step s a)) :
    ∀ (as : List A) (s : S), (∀ a ∈ as, G a) → I s → I (run step s as) := by
  intro as
  induction as with
  | nil => intro s _ h; exact h
  | cons a rest ih =>
      intro s hall h
      exact ih _ (fun b hb => hall b (List.mem_cons_of_mem a hb))
        (hstep s a (hall a List.mem_cons_self) h)

theorem always_of_mem {I : S → Prop} {G : A → Prop} (hstep : ∀ s a, G a → I s → I (step s a))
    {s : S} (h : I s) {as : List A} (hall : ∀ a ∈ as, G a) : Always step I s as :=
  fun pre hpre => run_invariant_of_mem hstep pre s (fun a ha => hall a (hpre.subset ha)) h

/-- An invariant holds all along every run. -/
theorem always_of_invariant {I : S → Prop} (hstep : ∀ s a, I s → I (step s a))
    {s : S} (h : I s) (as : List A) : Always step I s as :=
  fun pre _ => run_invariant hstep pre s h

/-- What every step keeps that meets its guard holds all along a guarded run. -/
theorem always_of_guarded {I : S → Prop} {G : S → A → Prop}
    (hstep : ∀ s a, I s → G s a → I (step s a)) :
    ∀ (as : List A) (s : S), I s → Guarded step G s as → Always step I s as := by
  intro as
  induction as with
  | nil => intro s h _; exact always_nil.mpr h
  | cons a rest ih =>
      intro s h hguard
      obtain ⟨hg, hrest⟩ := guarded_cons.mp hguard
      exact always_cons.mpr ⟨h, ih _ (hstep s a h hg) hrest⟩

theorem Always.mono {P Q : S → Prop} {s : S} {as : List A} (h : Always step P s as)
    (hPQ : ∀ s, P s → Q s) : Always step Q s as :=
  fun pre hpre => hPQ _ (h pre hpre)

/-! ### Exactly which runs keep a property

`J` is what a guarded step keeps as long as `P` holds; `P` is no invariant.  If,
wherever both hold, a step keeps `P` precisely when its guard is met, then the runs
that keep `P` throughout are precisely the guarded ones: at the first step that misses
its guard, `P` is lost.
-/

/-- Here the runs are those whose steps meet `H`. -/
theorem always_iff_guarded_of {J P : S → Prop} {G H : S → A → Prop}
    (hJ : ∀ s a, J s → P s → G s a → H s a → J (step s a))
    (hG : ∀ s a, J s → P s → H s a → (P (step s a) ↔ G s a)) :
    ∀ (as : List A) {s : S}, Guarded step H s as → J s → P s →
      (Always step P s as ↔ Guarded step G s as) := by
  intro as
  induction as with
  | nil => intro s _ _ hP; simp [hP]
  | cons a rest ih =>
      intro s hHs hJs hPs
      obtain ⟨hH, hHrest⟩ := guarded_cons.mp hHs
      rw [always_cons, guarded_cons]
      refine ⟨fun ⟨_, h⟩ => ?_, fun ⟨hg, h⟩ => ?_⟩
      · have hP' : P (step s a) := h [] List.nil_prefix
        have hg : G s a := (hG s a hJs hPs hH).mp hP'
        exact ⟨hg, (ih hHrest (hJ s a hJs hPs hg hH) hP').mp h⟩
      · have hP' : P (step s a) := (hG s a hJs hPs hH).mpr hg
        exact ⟨hPs, (ih hHrest (hJ s a hJs hPs hg hH) hP').mpr h⟩

theorem always_iff_guarded_while {J P : S → Prop} {G : S → A → Prop}
    (hJ : ∀ s a, J s → P s → G s a → J (step s a))
    (hG : ∀ s a, J s → P s → (P (step s a) ↔ G s a)) (as : List A) {s : S} :
    J s → P s → (Always step P s as ↔ Guarded step G s as) :=
  always_iff_guarded_of (H := fun _ _ => True) (fun s a hj hp hg _ => hJ s a hj hp hg)
    (fun s a hj hp _ => hG s a hj hp) as fun _ _ _ => trivial

/-- The same where `J` is an invariant. -/
theorem always_iff_guarded {J P : S → Prop} {G : S → A → Prop}
    (hJ : ∀ s a, J s → J (step s a))
    (hG : ∀ s a, J s → P s → (P (step s a) ↔ G s a)) :
    ∀ (as : List A) {s : S}, J s → P s → (Always step P s as ↔ Guarded step G s as) :=
  always_iff_guarded_while (fun s a hj _ _ => hJ s a hj) hG

/-- The same where no invariant is needed. -/
theorem always_iff_guarded_of_step {P : S → Prop} {G : S → A → Prop}
    (hG : ∀ s a, P s → (P (step s a) ↔ G s a)) (as : List A) {s : S} (h : P s) :
    Always step P s as ↔ Guarded step G s as :=
  always_iff_guarded (J := fun _ => True) (fun _ _ _ => trivial) (fun s a _ => hG s a) as trivial h

/-! ### Erasing some of the actions

`R s t` relates a state of the full run to the state of the run without the erased
actions, and `view` is what an observer sees.  An erased action that meets its guard
changes nothing `R` can tell; one that misses it is seen at once.
-/

theorem erase_iff {R : S → S → Prop} {G : S → A → Prop} {view : S → O} {keep : A → Bool}
    (hview : ∀ s t, R s t → view s = view t)
    (hkeep : ∀ s t a, keep a = true → R s t → R (step s a) (step t a) ∧ G s a)
    (hdrop : ∀ s t a, keep a = false → R s t → G s a → R (step s a) t)
    (hseen : ∀ s t a, keep a = false → R s t → view (step s a) = view t → G s a) :
    ∀ (as : List A) {s t : S}, R s t →
      ((∀ pre, pre <+: as → view (run step s pre) = view (run step t (pre.filter keep))) ↔
        Guarded step G s as) := by
  intro as
  induction as with
  | nil =>
      intro s t hR
      refine ⟨fun _ => guarded_nil, ?_⟩
      intro _ pre hpre
      rw [List.prefix_nil.mp hpre]
      exact hview s t hR
  | cons a rest ih =>
      intro s t hR
      rw [guarded_cons]
      by_cases ha : keep a = true
      · obtain ⟨hR', hg⟩ := hkeep s t a ha hR
        rw [← ih hR']
        refine ⟨fun h => ⟨hg, fun pre hpre => ?_⟩, fun ⟨_, h⟩ pre hpre => ?_⟩
        · simpa [ha] using h (a :: pre) ((List.prefix_cons_inj a).mpr hpre)
        · rcases List.prefix_cons_iff.mp hpre with rfl | ⟨pre', rfl, hpre'⟩
          · exact hview s t hR
          · simpa [ha] using h pre' hpre'
      · have hfalse : keep a = false := by simpa using ha
        refine ⟨fun h => ?_, fun ⟨hg, h⟩ pre hpre => ?_⟩
        · have hg : G s a := by
            refine hseen s t a hfalse hR ?_
            simpa [hfalse] using h [a] (by simp)
          refine ⟨hg, (ih (hdrop s t a hfalse hR hg)).mp fun pre hpre => ?_⟩
          simpa [hfalse] using h (a :: pre) ((List.prefix_cons_inj a).mpr hpre)
        · have h' := (ih (hdrop s t a hfalse hR hg)).mpr h
          rcases List.prefix_cons_iff.mp hpre with rfl | ⟨pre', rfl, hpre'⟩
          · exact hview s t hR
          · simpa [hfalse] using h' pre' hpre'

end Machine
