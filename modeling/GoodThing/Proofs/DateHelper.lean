/-
Milliseconds are lost on the way back.

`millisecondsSince1970` rounds to the millisecond, and `init(milliseconds:)` divides
before it leaves the integers, so it knows whole seconds only.  Going there and back keeps
what is a whole second, and nothing else.
-/
import GoodThing.Helper.DateHelper

namespace GoodThing

namespace Date

/-- At most half a millisecond from a whole second. -/
def OnSecond (d : Date) : Prop :=
  |d.timeIntervalSince1970 - round d.timeIntervalSince1970| ≤ 1 / 2000

theorem timeIntervalSince1970_ofMilliseconds (m : Int64) :
    (ofMilliseconds m).timeIntervalSince1970 = (m.toInt.tdiv 1000 : ℤ) := by
  show (((m / 1000).toInt : ℤ) : ℚ) = _
  rw [Int64.toInt_div_of_ne_right m 1000 (by decide)]
  rfl

end Date

open Date

/--
Milliseconds come back from a date exactly when they are whole seconds, and a date from
its milliseconds, to half of one, exactly when it is within that of a whole second.
-/
theorem milliseconds_round_trip_iff (m : Int64) (d : Date) :
    ((ofMilliseconds m).millisecondsSince1970 = some m ↔ 1000 ∣ m.toInt) ∧
    ∀ milliseconds, d.millisecondsSince1970 = some milliseconds →
      (|(ofMilliseconds milliseconds).timeIntervalSince1970 - d.timeIntervalSince1970|
        ≤ 1 / 2000 ↔ d.OnSecond) := by
  refine ⟨?_, ?_⟩
  · rw [millisecondsSince1970, Swift.exactly_eq_some_iff, timeIntervalSince1970_ofMilliseconds]
    exact Swift.rounded_tdiv_mul_eq_iff
  · intro milliseconds h
    have hrounded := Swift.exactly_eq_some_iff.mp h
    have hscaled := Swift.abs_tdiv_rounded_sub_le_iff (c := 1000) (by decide)
      d.timeIntervalSince1970
    have hhalf : (1 : ℚ) / (2 * (1000 : ℤ)) = 1 / 2000 := by norm_num
    rw [hhalf] at hscaled
    rw [timeIntervalSince1970_ofMilliseconds, ← hrounded]
    exact hscaled

/-- A minute comes back, and a minute and half a millisecond before 1970 as the minute. -/
theorem whole_second_kept :
    (ofMilliseconds 60000).millisecondsSince1970 = some 60000 ∧
    |(ofMilliseconds (-60001)).timeIntervalSince1970 - (-120001 / 2000)| ≤ 1 / 2000 := by
  have h := milliseconds_round_trip_iff 60000 ⟨-120001 / 2000⟩
  refine ⟨h.1.mpr (by decide), (h.2 (-60001) (by decide +kernel)).mpr ?_⟩
  unfold OnSecond
  decide +kernel

/-- Of one and a half seconds only one comes back, either way. -/
theorem half_second_lost :
    (ofMilliseconds 1500).millisecondsSince1970 ≠ some 1500 ∧
    (⟨3 / 2⟩ : Date).millisecondsSince1970 = some 1500 ∧
    ¬ |(ofMilliseconds 1500).timeIntervalSince1970 - 3 / 2| ≤ 1 / 2000 := by
  decide +kernel

end GoodThing
