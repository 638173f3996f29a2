/-
Files moved into one directory.

Each job fetches something into a file of its own and then moves that file to a place in the
directory, which it takes from what was asked for.  A move fails when there is no such place
or when it is taken, and no file is ever removed, so a place belongs to whoever comes first.
The job is told later, and finds in the directory what is there then.

`wellEnded_iff` says when nobody comes second.
-/
import GoodThing.Lib.Run
import Mathlib.Logic.Function.Basic
import Mathlib.Tactic.Common

namespace Directory

open Machine

variable {K U N B : Type*}

/-- What can be asked for: the place it is moved to, if there is one, and what it holds. -/
structure Source (U N B : Type*) where
  place : U → Option N
  content : U → B

/-- How far a job has come. -/
inductive Job (U N B : Type*) where
  | unused
  | fetching (u : U)
  /-- The file has been moved, and the job is about to be told. -/
  | moved (u : U) (n : N)
  /-- The job has been told the place, and found this; or it has been told nothing. -/
  | ended (u : U) (result : Option (N × Option B))
  deriving DecidableEq

structure State (K U N B : Type*) where
  files : N → Option B
  jobs : K → Job U N B

inductive Action (K U : Type*) where
  | start (k : K) (u : U)
  | fetched (k : K)
  | fetchFails (k : K)
  | told (k : K)

/-- What a job was started for. -/
def Job.asked : Job U N B → Option U
  | .unused => none
  | .fetching u => some u
  | .moved u _ => some u
  | .ended u _ => some u

/-- The job has put a file of its own into the directory. -/
def Job.Put (j : Job U N B) (u : U) (n : N) : Prop :=
  j = .moved u n ∨ ∃ found, j = .ended u (some (n, found))

theorem Job.not_put_unused {u : U} {n : N} : ¬ (Job.unused : Job U N B).Put u n := by
  rintro (h | ⟨found, h⟩)
  · cases h
  · cases h

theorem Job.not_put_fetching {u u' : U} {n : N} : ¬ (Job.fetching u : Job U N B).Put u' n := by
  rintro (h | ⟨found, h⟩)
  · cases h
  · cases h

theorem Job.not_put_refused {u u' : U} {n : N} : ¬ (Job.ended u none : Job U N B).Put u' n := by
  rintro (h | ⟨found, h⟩)
  · cases h
  · cases h

theorem Job.put_moved_iff {u u' : U} {n n' : N} :
    (Job.moved u n : Job U N B).Put u' n' ↔ u' = u ∧ n' = n := by
  refine ⟨?_, ?_⟩
  · rintro (h | ⟨found, h⟩)
    · obtain ⟨hu, hn⟩ := Job.moved.inj h
      exact ⟨hu.symm, hn.symm⟩
    · cases h
  · rintro ⟨rfl, rfl⟩
    exact Or.inl rfl

theorem Job.put_ended_iff {u u' : U} {n n' : N} {found : Option B} :
    (Job.ended u (some (n, found)) : Job U N B).Put u' n' ↔ u' = u ∧ n' = n := by
  refine ⟨?_, ?_⟩
  · rintro (h | ⟨found', h⟩)
    · cases h
    · obtain ⟨hu, hr⟩ := Job.ended.inj h
      exact ⟨hu.symm, (congrArg Prod.fst (Option.some.inj hr)).symm⟩
  · rintro ⟨rfl, rfl⟩
    exact Or.inr ⟨found, rfl⟩

/-- No job has been started. -/
def start (files : N → Option B) : State K U N B := { files := files, jobs := fun _ => .unused }

/-! ### Who was first -/

variable {src : Source U N B} {files : N → Option B} {s : State K U N B}

/-- How the directory came about: what was there, and one file for each job that put one. -/
structure Kept (src : Source U N B) (files : N → Option B) (s : State K U N B) : Prop where
  stays : ∀ n b, files n = some b → s.files n = some b
  put : ∀ k u n, (s.jobs k).Put u n →
    src.place u = some n ∧ files n = none ∧ s.files n = some (src.content u)
  distinct : ∀ k k' u u' n, (s.jobs k).Put u n → (s.jobs k').Put u' n → k = k'
  taken : ∀ n b, s.files n = some b → files n = some b ∨ ∃ k u, (s.jobs k).Put u n
  refused : ∀ k u, s.jobs k = .ended u none → ∀ n, src.place u = some n →
    (∃ b, files n = some b) ∨ ∃ k' u', k' ≠ k ∧ (s.jobs k').Put u' n
  found : ∀ k u n found, s.jobs k = .ended u (some (n, found)) → found = some (src.content u)

/-- Every job that was started has been told its place, and has found its own file there. -/
def WellEnded (src : Source U N B) (s : State K U N B) : Prop :=
  ∀ k u, (s.jobs k).asked = some u →
    ∃ n, src.place u = some n ∧ s.jobs k = .ended u (some (n, some (src.content u)))

/-- No job is on its way. -/
def AllEnded (s : State K U N B) : Prop :=
  ∀ k u, (s.jobs k).asked = some u → ∃ r, s.jobs k = .ended u r

theorem Job.asked_of_put {j : Job U N B} {u : U} {n : N} (h : j.Put u n) : j.asked = some u := by
  rcases h with rfl | ⟨found, rfl⟩
  · rfl
  · rfl

/--
Once no job is on its way, all have found their own file exactly when each has been started
for a place that was free before, and no two for the same one.
-/
theorem wellEnded_iff (hkept : Kept src files s) (hended : AllEnded s) :
    WellEnded src s ↔
      (∀ k u, (s.jobs k).asked = some u → ∃ n, src.place u = some n ∧ files n = none) ∧
      ∀ k k' u u', (s.jobs k).asked = some u → (s.jobs k').asked = some u' →
        src.place u = src.place u' → k = k' := by
  refine ⟨?_, ?_⟩
  · intro hwell
    have hput : ∀ k u, (s.jobs k).asked = some u →
        ∃ n, src.place u = some n ∧ (s.jobs k).Put u n := by
      intro k u hasked
      obtain ⟨n, hn, hjob⟩ := hwell k u hasked
      exact ⟨n, hn, Or.inr ⟨_, hjob⟩⟩
    refine ⟨?_, ?_⟩
    · intro k u hk
      obtain ⟨n, hn, hkn⟩ := hput k u hk
      exact ⟨n, hn, (hkept.put k u n hkn).2.1⟩
    · intro k k' u u' hk hk' hsame
      obtain ⟨n, hn, hkn⟩ := hput k u hk
      obtain ⟨n', hn', hkn'⟩ := hput k' u' hk'
      rw [hn, hn', Option.some_inj] at hsame
      rw [← hsame] at hkn'
      exact hkept.distinct k k' u u' n hkn hkn'
  · rintro ⟨hfree, hdistinct⟩ k u hasked
    obtain ⟨n, hn, hfiles⟩ := hfree k u hasked
    obtain ⟨r, hr⟩ := hended k u hasked
    refine ⟨n, hn, ?_⟩
    cases r with
    | some r =>
        obtain ⟨n', found⟩ := r
        have hplace := (hkept.put k u n' (Or.inr ⟨found, hr⟩)).1
        rw [hn, Option.some_inj] at hplace
        rw [hr, hkept.found k u n' found hr, hplace]
    | none =>
        rcases hkept.refused k u hr n hn with ⟨b, hb⟩ | ⟨k', u', hne, hput⟩
        · rw [hfiles] at hb
          cases hb
        · have hplace := (hkept.put k' u' n hput).1
          exact absurd (hdistinct k' k u' u (Job.asked_of_put hput) hasked (hplace.trans hn.symm))
            hne

theorem kept_start (files : N → Option B) : Kept src files (start files : State K U N B) :=
  ⟨fun _ _ h => h, fun _ _ _ h => absurd h Job.not_put_unused,
    fun _ _ _ _ _ h => absurd h Job.not_put_unused, fun _ _ h => Or.inl h, nofun, nofun⟩

/-- Whoever has put a file has taken another place than one that is free. -/
theorem Kept.place_ne (h : Kept src files s) {n n' : N} (hfree : s.files n = none) {k : K} {u : U}
    (hu : (s.jobs k).Put u n') : n' ≠ n := by
  rintro rfl
  have hfile := (h.put k u n' hu).2.2
  rw [hfree] at hfile
  cases hfile

/-- A place that is free has been so from the start. -/
theorem Kept.free (h : Kept src files s) {n : N} (hfree : s.files n = none) : files n = none := by
  by_contra hne
  obtain ⟨b, hb⟩ := Option.ne_none_iff_exists'.mp hne
  have hstays := h.stays n b hb
  rw [hfree] at hstays
  cases hstays

/-! ### The steps -/

section

variable [DecidableEq K]

def State.set (s : State K U N B) (k : K) (j : Job U N B) : State K U N B :=
  { s with jobs := Function.update s.jobs k j }

theorem jobs_set_self (s : State K U N B) (k : K) (j : Job U N B) : (s.set k j).jobs k = j := by
  simp [State.set]

theorem jobs_set_of_ne (s : State K U N B) {k k' : K} (h : k' ≠ k) (j : Job U N B) :
    (s.set k j).jobs k' = s.jobs k' := by
  simp [State.set, h]

/-- A job that puts nothing new into the directory. -/
theorem Kept.set (h : Kept src files s) {k : K} {j : Job U N B}
    (hput : ∀ u n, j.Put u n ↔ (s.jobs k).Put u n)
    (hrefused : ∀ u, j = .ended u none → ∀ n, src.place u = some n →
      (∃ b, files n = some b) ∨ ∃ k' u', k' ≠ k ∧ (s.jobs k').Put u' n)
    (hfound : ∀ u n found, j = .ended u (some (n, found)) → found = some (src.content u)) :
    Kept src files (s.set k j) := by
  have hsame : ∀ k' u n, ((s.set k j).jobs k').Put u n ↔ (s.jobs k').Put u n := by
    intro k' u n
    by_cases hk : k' = k
    · rw [hk, jobs_set_self]
      exact hput u n
    · rw [jobs_set_of_ne s hk]
  refine ⟨h.stays, ?_, ?_, ?_, ?_, ?_⟩
  · intro k' u n hu
    exact h.put k' u n ((hsame k' u n).mp hu)
  · intro k₁ k₂ u₁ u₂ n h₁ h₂
    exact h.distinct k₁ k₂ u₁ u₂ n ((hsame k₁ u₁ n).mp h₁) ((hsame k₂ u₂ n).mp h₂)
  · intro n b hb
    refine (h.taken n b hb).imp_right ?_
    rintro ⟨k', u, hu⟩
    exact ⟨k', u, (hsame k' u n).mpr hu⟩
  · intro k' u hended n hn
    have hthis : (∃ b, files n = some b) ∨ ∃ k₁ u₁, k₁ ≠ k' ∧ (s.jobs k₁).Put u₁ n := by
      by_cases hk : k' = k
      · subst hk
        rw [jobs_set_self] at hended
        exact hrefused u hended n hn
      · rw [jobs_set_of_ne s hk] at hended
        exact h.refused k' u hended n hn
    refine hthis.imp_right ?_
    rintro ⟨k₁, u₁, hne, hu₁⟩
    exact ⟨k₁, u₁, hne, (hsame k₁ u₁ n).mpr hu₁⟩
  · intro k' u n found hended
    by_cases hk : k' = k
    · subst hk
      rw [jobs_set_self] at hended
      exact hfound u n found hended
    · rw [jobs_set_of_ne s hk] at hended
      exact h.found k' u n found hended

/-- One job more has put a file. -/
theorem put_set_moved_iff {k : K} {u : U} {n : N} (hk : s.jobs k = .fetching u) (k' : K) (u' : U)
    (n' : N) : ((s.set k (.moved u n)).jobs k').Put u' n' ↔
      (k' = k ∧ u' = u ∧ n' = n) ∨ (s.jobs k').Put u' n' := by
  by_cases hk' : k' = k
  · rw [hk', jobs_set_self, Job.put_moved_iff, hk]
    refine ⟨fun hu => Or.inl ⟨rfl, hu⟩, ?_⟩
    rintro (⟨-, hu⟩ | hput)
    · exact hu
    · exact absurd hput Job.not_put_fetching
  · rw [jobs_set_of_ne s hk']
    exact ⟨Or.inr, fun hor => hor.resolve_left fun hkk => hk' hkk.1⟩

/-- It has not ended yet. -/
theorem ended_of_set_moved {k k' : K} {u u' : U} {n : N} {r : Option (N × Option B)}
    (h : (s.set k (.moved u n)).jobs k' = .ended u' r) : s.jobs k' = .ended u' r := by
  have hk' : k' ≠ k := by
    rintro rfl
    rw [jobs_set_self] at h
    cases h
  rw [jobs_set_of_ne s hk'] at h
  exact h

end

variable [DecidableEq K] [DecidableEq N]

def step (src : Source U N B) (s : State K U N B) : Action K U → State K U N B
  | .start k u =>
      match s.jobs k with
      | .unused => s.set k (.fetching u)
      | _ => s
  | .fetched k =>
      match s.jobs k with
      | .fetching u =>
          match src.place u with
          | none => s.set k (.ended u none)
          | some n =>
              match s.files n with
              | none =>
                  { s.set k (.moved u n) with
                    files := Function.update s.files n (some (src.content u)) }
              | some _ => s.set k (.ended u none)
      | _ => s
  | .fetchFails k =>
      match s.jobs k with
      | .fetching u => s.set k (.ended u none)
      | _ => s
  | .told k =>
      match s.jobs k with
      | .moved u n => s.set k (.ended u (some (n, s.files n)))
      | _ => s

/-- Everything a step can do, if no fetch fails. -/
theorem step_cases (s : State K U N B) (a : Action K U) (ha : ∀ k, a ≠ .fetchFails k) :
    step src s a = s ∨
    (∃ k u, s.jobs k = .unused ∧ step src s a = s.set k (.fetching u)) ∨
    (∃ k u n, s.jobs k = .fetching u ∧ src.place u = some n ∧ s.files n = none ∧
      step src s a = { s.set k (.moved u n) with
        files := Function.update s.files n (some (src.content u)) }) ∨
    (∃ k u, s.jobs k = .fetching u ∧
      (∀ n, src.place u = some n → ∃ b, s.files n = some b) ∧
      step src s a = s.set k (.ended u none)) ∨
    (∃ k u n, s.jobs k = .moved u n ∧
      step src s a = s.set k (.ended u (some (n, s.files n)))) := by
  cases a with
  | start k u =>
      cases hk : s.jobs k with
      | unused => exact Or.inr (Or.inl ⟨k, u, hk, by simp only [step, hk]⟩)
      | _ => exact Or.inl (by simp only [step, hk])
  | fetched k =>
      cases hk : s.jobs k with
      | fetching u =>
          cases hplace : src.place u with
          | none =>
              refine Or.inr (Or.inr (Or.inr (Or.inl ⟨k, u, hk, ?_, ?_⟩)))
              · intro n hn
                rw [hplace] at hn
                cases hn
              · simp only [step, hk, hplace]
          | some n =>
              cases hfile : s.files n with
              | none =>
                  refine Or.inr (Or.inr (Or.inl ⟨k, u, n, hk, hplace, hfile, ?_⟩))
                  simp only [step, hk, hplace, hfile]
              | some b =>
                  refine Or.inr (Or.inr (Or.inr (Or.inl ⟨k, u, hk, ?_, ?_⟩)))
                  · intro n' hn'
                    rw [hplace, Option.some_inj] at hn'
                    exact ⟨b, hn' ▸ hfile⟩
                  · simp only [step, hk, hplace, hfile]
      | _ => exact Or.inl (by simp only [step, hk])
  | fetchFails k => exact absurd rfl (ha k)
  | told k =>
      cases hk : s.jobs k with
      | moved u n =>
          refine Or.inr (Or.inr (Or.inr (Or.inr ⟨k, u, n, hk, ?_⟩)))
          simp only [step, hk]
      | _ => exact Or.inl (by simp only [step, hk])

/-- A job that puts a file where none was. -/
theorem Kept.move (h : Kept src files s) {k : K} {u : U} {n : N} (hk : s.jobs k = .fetching u)
    (hplace : src.place u = some n) (hfree : s.files n = none) :
    Kept src files { s.set k (.moved u n) with
      files := Function.update s.files n (some (src.content u)) } := by
  have hnew := put_set_moved_iff (n := n) hk
  have hfresh := h.free hfree
  refine ⟨?_, ?_, ?_, ?_, ?_, ?_⟩
  · intro n' b hb
    have hne : n' ≠ n := by
      rintro rfl
      rw [hfresh] at hb
      cases hb
    show Function.update s.files n _ n' = some b
    rw [Function.update_of_ne hne]
    exact h.stays n' b hb
  · intro k' u' n' hu'
    show _ ∧ _ ∧ Function.update s.files n _ n' = _
    rcases (hnew k' u' n').mp hu' with ⟨-, rfl, rfl⟩ | hold
    · exact ⟨hplace, hfresh, Function.update_self _ _ _⟩
    · rw [Function.update_of_ne (h.place_ne hfree hold)]
      exact h.put k' u' n' hold
  · intro k₁ k₂ u₁ u₂ n' h₁ h₂
    rcases (hnew k₁ u₁ n').mp h₁ with ⟨rfl, -, rfl⟩ | hold₁
    · rcases (hnew k₂ u₂ n').mp h₂ with ⟨rfl, -, -⟩ | hold₂
      · rfl
      · exact absurd rfl (h.place_ne hfree hold₂)
    · rcases (hnew k₂ u₂ n').mp h₂ with ⟨rfl, -, rfl⟩ | hold₂
      · exact absurd rfl (h.place_ne hfree hold₁)
      · exact h.distinct k₁ k₂ u₁ u₂ n' hold₁ hold₂
  · intro n' b hb
    have hb' : Function.update s.files n (some (src.content u)) n' = some b := hb
    by_cases hn : n' = n
    · exact Or.inr ⟨k, u, (hnew k u n').mpr (Or.inl ⟨rfl, rfl, hn⟩)⟩
    · rw [Function.update_of_ne hn] at hb'
      refine (h.taken n' b hb').imp_right ?_
      rintro ⟨k', u', hu'⟩
      exact ⟨k', u', (hnew k' u' n').mpr (Or.inr hu')⟩
  · intro k' u' hended n' hn'
    refine (h.refused k' u' (ended_of_set_moved hended) n' hn').imp_right ?_
    rintro ⟨k₁, u₁, hne, hu₁⟩
    exact ⟨k₁, u₁, hne, (hnew k₁ u₁ n').mpr (Or.inr hu₁)⟩
  · intro k' u' n' found hended
    exact h.found k' u' n' found (ended_of_set_moved hended)

theorem kept_step (a : Action K U) (ha : ∀ k, a ≠ .fetchFails k) (h : Kept src files s) :
    Kept src files (step src s a) := by
  rcases step_cases s a ha with heq | ⟨k, u, hk, heq⟩ | ⟨k, u, n, hk, hplace, hfree, heq⟩ |
    ⟨k, u, hk, htaken, heq⟩ | ⟨k, u, n, hk, heq⟩
  · rw [heq]
    exact h
  · rw [heq]
    refine h.set ?_ nofun nofun
    intro u' n
    rw [hk]
    exact iff_of_false Job.not_put_fetching Job.not_put_unused
  · rw [heq]
    exact h.move hk hplace hfree
  · rw [heq]
    refine h.set ?_ ?_ nofun
    · intro u' n
      rw [hk]
      exact iff_of_false Job.not_put_refused Job.not_put_fetching
    · -- The place is taken, by a file that was there or by another job.
      intro u' hu' n hn
      rw [← (Job.ended.inj hu').1] at hn
      obtain ⟨b, hb⟩ := htaken n hn
      rcases h.taken n b hb with hthere | ⟨k', u₁, hput⟩
      · exact Or.inl ⟨b, hthere⟩
      · refine Or.inr ⟨k', u₁, ?_, hput⟩
        rintro rfl
        rw [hk] at hput
        exact Job.not_put_fetching hput
  · rw [heq]
    have hown := (h.put k u n (by rw [hk]; exact Or.inl rfl)).2.2
    refine h.set ?_ nofun ?_
    · intro u' n'
      rw [hk, Job.put_moved_iff, Job.put_ended_iff]
    · intro u' n' found hended
      obtain ⟨rfl, hr⟩ := Job.ended.inj hended
      obtain ⟨rfl, rfl⟩ := Prod.mk.inj (Option.some.inj hr)
      exact hown

end Directory
