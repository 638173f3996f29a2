/-
Rounding to the nearest integer, and losing what is left of a division.

`rounded()` takes halves away from zero where Mathlib's `round` takes them up, and an
integer division drops its remainder towards zero.  A value that is scaled up, rounded
and divided again comes back as the integer next to it, and not as the value: the
division has no room for the digits the scale was meant to keep.
-/
import Mathlib.Algebra.Order.Round
import Mathlib.Tactic.Linarith
import Mathlib.Tactic.FieldSimp
import Mathlib.Tactic.Ring

namespace Swift

variable {K : Type*} [Field K] [LinearOrder K] [FloorRing K]

/-- `rounded()`: the nearest integer, and of two the one farther from zero. -/
def rounded (x : K) : ℤ := if 0 ≤ x then round x else -round (-x)

theorem rounded_of_nonneg {x : K} (h : 0 ≤ x) : rounded x = round x := if_pos h

variable [IsStrictOrderedRing K]

theorem rounded_neg (x : K) : rounded (-x) = -rounded x := by
  rcases lt_trichotomy x 0 with hneg | rfl | hpos
  · rw [rounded_of_nonneg (neg_nonneg.mpr hneg.le), rounded, if_neg hneg.not_ge, neg_neg]
  · simp [rounded]
  · rw [rounded_of_nonneg hpos.le, rounded, if_neg (neg_neg_iff_pos.mpr hpos).not_ge, neg_neg]

theorem rounded_intCast (n : ℤ) : rounded (n : K) = n := by
  unfold rounded
  split
  · exact round_intCast n
  · rw [← Int.cast_neg, round_intCast, neg_neg]

/-- From zero on, the only choice is at a half, and it goes up. -/
theorem rounded_cases_of_nonneg {x : K} {n : ℤ} (hx : 0 ≤ x) (h : |x - n| ≤ 1 / 2) :
    rounded x = n ∨ 0 ≤ n ∧ rounded x = n + 1 := by
  obtain ⟨hlo, hhi⟩ := abs_le.mp h
  rw [rounded_of_nonneg hx]
  by_cases hlt : x < n + 1 / 2
  · exact Or.inl (round_eq_iff.mpr ⟨by linarith, hlt⟩)
  · have hhalf : x = n + 1 / 2 := by linarith
    refine Or.inr ⟨?_, ?_⟩
    · have hn : (-1 : K) < n := by linarith
      have hn' : -1 < n := by exact_mod_cast hn
      omega
    · rw [round_eq_iff, hhalf]
      push_cast
      exact ⟨by linarith, by linarith⟩

/-- What is at most a half away from an integer is rounded to it, or to one farther out. -/
theorem rounded_cases {x : K} {n : ℤ} (h : |x - n| ≤ 1 / 2) :
    rounded x = n ∨ (0 ≤ n ∧ rounded x = n + 1) ∨ n ≤ 0 ∧ rounded x = n - 1 := by
  rcases le_total 0 x with hx | hx
  · exact (rounded_cases_of_nonneg hx h).imp_right Or.inl
  · have hmirror : |-x - ((-n : ℤ) : K)| ≤ 1 / 2 := by
      rw [Int.cast_neg, neg_sub_neg, abs_sub_comm]
      exact h
    rcases rounded_cases_of_nonneg (neg_nonneg.mpr hx) hmirror with heq | ⟨hn, heq⟩
    · rw [rounded_neg] at heq
      exact Or.inl (neg_inj.mp heq)
    · rw [rounded_neg] at heq
      exact Or.inr (Or.inr ⟨by omega, by omega⟩)

/-! ### Dividing again -/

theorem tdiv_succ {c n : ℤ} (hc : 1 < c) (hn : 0 ≤ n) : (c * n + 1).tdiv c = n := by
  have hnonneg : 0 ≤ c * n := mul_nonneg (by omega) hn
  rw [Int.tdiv_eq_ediv_of_nonneg (by omega), Int.add_comm, Int.add_mul_ediv_left _ _ (by omega),
    Int.ediv_eq_zero_of_lt (by omega) hc, zero_add]

/-- Near a multiple, rounding goes no farther than a division takes back. -/
theorem tdiv_rounded {x : K} {c n : ℤ} (hc : 1 < c) (h : |x - (c * n : ℤ)| ≤ 1 / 2) :
    (rounded x).tdiv c = n := by
  rcases rounded_cases h with heq | ⟨hn, heq⟩ | ⟨hn, heq⟩
  · rw [heq, Int.mul_tdiv_cancel_left n (by omega)]
  · rw [heq]
    exact tdiv_succ hc (nonneg_of_mul_nonneg_right hn (by omega))
  · have hneg : 0 ≤ -n := by
      refine nonneg_of_mul_nonneg_right (a := c) ?_ (by omega)
      rw [mul_neg]
      omega
    have hmirror : c * n - 1 = -(c * -n + 1) := by ring
    rw [heq, hmirror, Int.neg_tdiv, tdiv_succ hc hneg, neg_neg]

/--
Scaling up by `c`, rounding and dividing by `c` comes within half of `1 / c` of the value
exactly when an integer is as near as that.
-/
theorem abs_tdiv_rounded_sub_le_iff {c : ℤ} (hc : 1 < c) (x : K) :
    |((rounded (x * c)).tdiv c : K) - x| ≤ 1 / (2 * c) ↔ |x - round x| ≤ 1 / (2 * c) := by
  refine ⟨?_, ?_⟩
  · intro h
    rw [abs_sub_comm] at h
    exact (round_le x _).trans h
  · intro h
    have hpos : (0 : K) < c := by
      have : (0 : ℤ) < c := by omega
      exact_mod_cast this
    have hnear : |x * c - (c * round x : ℤ)| ≤ 1 / 2 := by
      have hscaled : x * c - (c * round x : ℤ) = (x - round x) * c := by
        push_cast
        ring
      rw [hscaled, abs_mul, abs_of_pos hpos]
      calc |x - round x| * c ≤ 1 / (2 * c) * c := mul_le_mul_of_nonneg_right h hpos.le
        _ = 1 / 2 := by field_simp
    rw [tdiv_rounded hc hnear, abs_sub_comm]
    exact h

/-- A quotient scaled up again is what was divided exactly if there was no remainder. -/
theorem rounded_tdiv_mul_eq_iff {c m : ℤ} :
    rounded ((m.tdiv c : K) * c) = m ↔ c ∣ m := by
  rw [← Int.cast_mul, rounded_intCast]
  refine ⟨?_, Int.tdiv_mul_cancel⟩
  intro h
  exact Dvd.intro_left _ h

end Swift
