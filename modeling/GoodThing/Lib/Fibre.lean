/-
How often a function takes its values.

A map that takes every value of a set equally often turns a uniform argument into a
uniform value.  Two such maps are counted here: a remainder, over a number of arguments
that its modulus divides, and a map applied to every element of a list.
-/
import Mathlib.Algebra.Order.BigOperators.Group.Finset
import Mathlib.Data.Fintype.Vector
import Mathlib.Data.List.NodupEquivFin
import Mathlib.Logic.Equiv.Fin.Basic
import Mathlib.Probability.Distributions.Uniform
import Mathlib.SetTheory.Cardinal.Finite

namespace Fibre

open scoped ENNReal

variable {α β : Type*}

/-! ### Remainders -/

/-- Of `k * m` numbers, `k` have a given remainder modulo `m`. -/
theorem card_modNat (k m : ℕ) (i : Fin m) :
    Nat.card { x : Fin (k * m) // x.modNat = i } = k := by
  have hpairs : { x : Fin (k * m) // x.modNat = i } ≃ { p : Fin k × Fin m // p.2 = i } :=
    finProdFinEquiv.symm.subtypeEquiv fun _ => Iff.rfl
  have hfirst : { p : Fin k × Fin m // p.2 = i } ≃ Fin k :=
    { toFun := fun p => p.1.1
      invFun := fun j => ⟨(j, i), rfl⟩
      left_inv := by
        rintro ⟨⟨j, i'⟩, hi⟩
        obtain rfl : i' = i := hi
        rfl
      right_inv := fun _ => rfl }
  rw [Nat.card_congr (hpairs.trans hfirst), Nat.card_fin]

/-- The same when the remainder picks from a list in which nothing is repeated. -/
theorem card_get_modNat (k : ℕ) {l : List β} (hl : l.Nodup) {b : β} (hb : b ∈ l) :
    Nat.card { x : Fin (k * l.length) // l.get x.modNat = b } = k := by
  obtain ⟨i, rfl⟩ := List.mem_iff_get.mp hb
  have hpick : { x : Fin (k * l.length) // l.get x.modNat = l.get i } ≃
      { x : Fin (k * l.length) // x.modNat = i } :=
    Equiv.subtypeEquivRight fun x => (List.nodup_iff_injective_get.mp hl).eq_iff
  rw [Nat.card_congr hpick, card_modNat]

/-! ### Lists -/

/-- A list is mapped to `b :: bs` in as many ways as its head to `b` and its tail to `bs`. -/
theorem card_map_cons (f : α → β) (b : β) (bs : List β) :
    Nat.card { as : List α // as.map f = b :: bs } =
      Nat.card { a : α // f a = b } * Nat.card { as : List α // as.map f = bs } := by
  let cons (p : { a : α // f a = b } × { as : List α // as.map f = bs }) :
      { as : List α // as.map f = b :: bs } :=
    ⟨p.1.1 :: p.2.1, by rw [List.map_cons, p.1.2, p.2.2]⟩
  have hcons : Function.Bijective cons := by
    refine ⟨?_, ?_⟩
    · intro p q heq
      obtain ⟨hhead, htail⟩ := List.cons.inj (Subtype.ext_iff.mp heq)
      exact Prod.ext (Subtype.ext hhead) (Subtype.ext htail)
    · rintro ⟨as, h⟩
      cases as with
      | nil => cases h
      | cons a as => exact ⟨(⟨a, (List.cons.inj h).1⟩, ⟨as, (List.cons.inj h).2⟩), rfl⟩
  rw [← Nat.card_eq_of_bijective cons hcons, Nat.card_prod]

/-- Lists are mapped evenly when their elements are. -/
theorem card_map (f : α → β) {B : Set β} {k : ℕ}
    (hf : ∀ b ∈ B, Nat.card { a : α // f a = b } = k) :
    ∀ bs : List β, (∀ b ∈ bs, b ∈ B) →
      Nat.card { as : List α // as.map f = bs } = k ^ bs.length := by
  intro bs
  induction bs with
  | nil =>
      intro _
      have hnil : { as : List α // as.map f = [] } ≃ { as : List α // as = [] } :=
        Equiv.subtypeEquivRight fun as => List.map_eq_nil_iff
      rw [Nat.card_congr hnil, Nat.card_unique, List.length_nil, pow_zero]
  | cons b bs ih =>
      intro hmem
      have hrest := ih fun b' hb' => hmem b' (List.mem_cons_of_mem b hb')
      rw [card_map_cons, hf b (hmem b List.mem_cons_self), hrest, List.length_cons, pow_succ']

/-- All lists that are mapped to `bs` have its length. -/
theorem card_map_vector (f : α → β) {B : Set β} {k n : ℕ}
    (hf : ∀ b ∈ B, Nat.card { a : α // f a = b } = k) (bs : List β) (hbs : ∀ b ∈ bs, b ∈ B)
    (hn : bs.length = n) :
    Nat.card { as : List.Vector α n // as.toList.map f = bs } = k ^ n := by
  have hlists : { as : List.Vector α n // as.toList.map f = bs } ≃
      { as : List α // as.map f = bs } := by
    refine Equiv.subtypeSubtypeEquivSubtype (p := fun as : List α => as.length = n)
      (q := fun as => as.map f = bs) ?_
    intro as has
    rw [← hn, ← has, List.length_map]
  rw [Nat.card_congr hlists, card_map f hf bs hbs, hn]

/-! ### Uniform arguments -/

/-- The probability of a value is the share of the arguments that have it. -/
theorem uniform_map_apply [Fintype α] [Nonempty α] (f : α → β) (b : β) :
    (PMF.uniformOfFintype α).map f b = Nat.card { a : α // f a = b } / Fintype.card α := by
  classical
  have hfibre : Set.preimage f { b } = { a : α | f a = b } := rfl
  rw [← PMF.toOuterMeasure_apply_singleton, PMF.toOuterMeasure_map_apply, hfibre,
    PMF.toOuterMeasure_uniformOfFintype_apply, Nat.card_eq_fintype_card]
  rfl

end Fibre
