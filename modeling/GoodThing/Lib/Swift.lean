/-
Swift's `Int` where its width shows.

`Int` has 64 bits on every device the app runs on.  Parsing a text that does not
fit gives `nil`, and arithmetic that overflows stops the program, so both are
partial here.  Lean's `Int64` supplies the values and their order.
-/
import Mathlib.Algebra.Order.Ring.Int
import Mathlib.Tactic.Common

namespace Swift

/-- One ASCII digit. -/
def digit? (c : Char) : Option Nat := if c.isDigit then some (c.toNat - '0'.toNat) else none

/-- The digits read so far make `acc`. -/
def digitsFrom : Nat → List Char → Option Nat
  | acc, [] => some acc
  | acc, c :: cs => digit? c >>= fun d => digitsFrom (10 * acc + d) cs

/-- One or more digits and nothing else. -/
def digits? : List Char → Option Nat
  | [] => none
  | cs => digitsFrom 0 cs

/-- The value if it fits in 64 bits. -/
def exactly (n : Int) : Option Int64 :=
  if -2 ^ 63 ≤ n ∧ n < 2 ^ 63 then some (Int64.ofInt n) else none

theorem exactly_eq_some_iff {n : Int} {m : Int64} : exactly n = some m ↔ n = m.toInt := by
  unfold exactly
  refine ⟨?_, ?_⟩
  · intro h
    split at h
    · rename_i hfits
      rw [← Option.some.inj h, Int64.toInt_ofInt_of_le hfits.1 hfits.2]
    · cases h
  · rintro rfl
    rw [if_pos ⟨m.le_toInt, m.toInt_lt⟩, Int64.ofInt_toInt]

/-- `Int(_:)` on a string: an optional sign, then digits. -/
def parseInt (s : String) : Option Int64 :=
  match s.toList with
  | '-' :: cs => digits? cs >>= fun n => exactly (-n)
  | '+' :: cs => digits? cs >>= fun n => exactly n
  | cs => digits? cs >>= fun n => exactly n

/-- `n + 1`, or a trap. -/
def succ? (n : Int64) : Option Int64 := if n.toInt + 1 < 2 ^ 63 then some (n + 1) else none

theorem toInt_succ {n : Int64} (h : n.toInt + 1 < 2 ^ 63) : (n + 1).toInt = n.toInt + 1 := by
  have hlo := n.le_toInt
  rw [Int64.toInt_add, Int64.toInt_one]
  exact Int.bmod_eq_of_le (by omega) (by omega)

/-- Below some other `Int` there is always room for one more. -/
theorem succ?_of_lt {n m : Int64} (h : n < m) :
    ∃ k, succ? n = some k ∧ k.toInt = n.toInt + 1 ∧ k.toInt ≤ m.toInt := by
  have hlt : n.toInt < m.toInt := Int64.lt_iff_toInt_lt.mp h
  have hm := m.toInt_lt
  have hroom : n.toInt + 1 < 2 ^ 63 := by omega
  refine ⟨n + 1, by rw [succ?, if_pos hroom], toInt_succ hroom, ?_⟩
  rw [toInt_succ hroom]
  omega

end Swift
