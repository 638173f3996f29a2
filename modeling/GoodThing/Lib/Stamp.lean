/-
Time stamps in the order of their texts.

Every number of `yyyy.MM.dd HH:mm` is padded to its width, so two stamps are compared
year first, then month, and so on, as long as the year has four digits.  That is the order
of the minutes: `clock` counts the days of the calendar one by one with `next`, which is
what makes the later of two times the greater stamp across the ends of months and years.
-/
import GoodThing.Lib.Clock
import Mathlib.Data.String.Basic
import Mathlib.Order.Monotone.Basic

namespace Calendar

/-! ### Padded numbers -/

/-- Texts with beginnings of one length are compared by these first. -/
theorem append_lt_append_iff {β : Type*} [LinearOrder β] :
    ∀ {as bs : List β}, as.length = bs.length → ∀ (cs ds : List β),
      as ++ cs < bs ++ ds ↔ as < bs ∨ as = bs ∧ cs < ds := by
  intro as
  induction as with
  | nil =>
      intro bs h cs ds
      rw [List.length_eq_zero_iff.mp h.symm]
      simp
  | cons a rest ih =>
      intro bs h cs ds
      cases bs with
      | nil => cases h
      | cons b rest' =>
          rw [List.cons_append, List.cons_append, List.cons_lt_cons_iff, List.cons_lt_cons_iff,
            ih (Nat.succ.inj h), List.cons.injEq]
          tauto

theorem digitChar_lt_iff {n m : Nat} (hn : n < 10) (hm : m < 10) :
    n.digitChar < m.digitChar ↔ n < m := by
  rw [Char.lt_def, UInt32.lt_iff_toNat_lt]
  show n.digitChar.toNat < m.digitChar.toNat ↔ n < m
  rw [Nat.toNat_digitChar_of_lt_ten hn, Nat.toNat_digitChar_of_lt_ten hm]
  omega

theorem length_padded {width n : Nat} (hwidth : 0 < width) (hn : n < 10 ^ width) :
    (padded width n).length = width := by
  have hle := (Nat.length_toDigits_le_iff (b := 10) (by omega) hwidth).mpr hn
  rw [padded, List.length_append, List.length_replicate]
  omega

/-- The last digit of a padded number. -/
theorem padded_succ (width n : Nat) :
    padded (width + 2) n = padded (width + 1) (n / 10) ++ [(n % 10).digitChar] := by
  unfold padded
  by_cases hn : n < 10
  · have hdiv : n / 10 = 0 := by omega
    have hmod : n % 10 = n := by omega
    rw [hdiv, hmod, Nat.toDigits_of_lt_base hn, Nat.toDigits_zero, List.length_singleton,
      List.length_singleton]
    show List.replicate (width + 1) '0' ++ _ = List.replicate width '0' ++ ['0'] ++ _
    rw [List.replicate_succ']
  · rw [Nat.toDigits_of_base_le (by omega) (by omega : 10 ≤ n), List.length_append,
      List.length_singleton, ← List.append_assoc]
    congr 3
    omega

/-- Padded numbers are in order. -/
theorem padded_lt_iff (width : Nat) {n m : Nat} (hn : n < 10 ^ (width + 1))
    (hm : m < 10 ^ (width + 1)) : padded (width + 1) n < padded (width + 1) m ↔ n < m := by
  induction width generalizing n m with
  | zero =>
      have hpadded : ∀ k, k < 10 → padded 1 k = [k.digitChar] := by
        intro k hk
        rw [padded, Nat.toDigits_of_lt_base hk]
        rfl
      have hn' : n < 10 := by omega
      have hm' : m < 10 := by omega
      rw [hpadded n hn', hpadded m hm', List.cons_lt_cons_iff, digitChar_lt_iff hn' hm']
      simp
  | succ width ih =>
      have hn' : n / 10 < 10 ^ (width + 1) := by
        rw [Nat.div_lt_iff_lt_mul (by omega), ← Nat.pow_succ]
        exact hn
      have hm' : m / 10 < 10 ^ (width + 1) := by
        rw [Nat.div_lt_iff_lt_mul (by omega), ← Nat.pow_succ]
        exact hm
      have hlength : (padded (width + 1) (n / 10)).length = (padded (width + 1) (m / 10)).length := by
        rw [length_padded (by omega) hn', length_padded (by omega) hm']
      rw [padded_succ, padded_succ, append_lt_append_iff hlength, ih hn' hm',
        List.cons_lt_cons_iff, digitChar_lt_iff (by omega) (by omega)]
      have hinj : padded (width + 1) (n / 10) = padded (width + 1) (m / 10) ↔ n / 10 = m / 10 :=
        ⟨padded_injective, fun h => by rw [h]⟩
      rw [hinj]
      simp only [List.not_lt_nil, and_false, or_false]
      omega

/-- What follows a padded number is compared when the numbers are equal. -/
theorem padded_append_lt_iff {width n m : Nat} (hn : n < 10 ^ (width + 1))
    (hm : m < 10 ^ (width + 1)) (cs ds : List Char) :
    padded (width + 1) n ++ cs < padded (width + 1) m ++ ds ↔ n < m ∨ n = m ∧ cs < ds := by
  have hlength : (padded (width + 1) n).length = (padded (width + 1) m).length := by
    rw [length_padded (by omega) hn, length_padded (by omega) hm]
  have hinj : padded (width + 1) n = padded (width + 1) m ↔ n = m :=
    ⟨padded_injective, fun h => by rw [h]⟩
  rw [append_lt_append_iff hlength, padded_lt_iff width hn hm, hinj]

/-! ### Stamps -/

/-- Numbers with a remainder are compared by what they are multiples of first. -/
theorem mul_add_lt_iff {k n m r r' : Nat} (hr : r < k) (hr' : r' < k) :
    n * k + r < m * k + r' ↔ n < m ∨ n = m ∧ r < r' := by
  rcases Nat.lt_trichotomy n m with hlt | heq | hgt
  · have hmul : (n + 1) * k ≤ m * k := Nat.mul_le_mul_right k hlt
    rw [Nat.add_mul, Nat.one_mul] at hmul
    omega
  · rw [heq]
    omega
  · have hmul : (m + 1) * k ≤ n * k := Nat.mul_le_mul_right k hgt
    rw [Nat.add_mul, Nat.one_mul] at hmul
    omega

theorem lt_iff_div_mod (k n m : Nat) :
    n < m ↔ n / k < m / k ∨ n / k = m / k ∧ n % k < m % k := by
  rcases Nat.eq_zero_or_pos k with hk | hk
  · rw [hk]
    simp
  · have hsplit := mul_add_lt_iff (n := n / k) (m := m / k) (Nat.mod_lt n hk) (Nat.mod_lt m hk)
    rw [Nat.div_add_mod', Nat.div_add_mod'] at hsplit
    exact hsplit

namespace Day

theorem rank_eq (d : Day) :
    d.rank = (d.year * 12 + (d.month - 1)) * 31 + (d.day - 1) + 32 := by
  have hmonth := d.month_pos
  have hday := d.day_pos
  unfold rank
  omega

theorem rank_lt_iff (d e : Day) :
    d.rank < e.rank ↔ d.year < e.year ∨ d.year = e.year ∧
      (d.month < e.month ∨ d.month = e.month ∧ d.day < e.day) := by
  have hd := Nat.le_trans d.day_le (daysIn_le _ _)
  have he := Nat.le_trans e.day_le (daysIn_le _ _)
  have hd' := d.day_pos
  have he' := e.day_pos
  have hm := d.month_pos
  have hm' := d.month_le
  have hn := e.month_pos
  have hn' := e.month_le
  have hless : d.year * 12 + (d.month - 1) < e.year * 12 + (e.month - 1) ↔
      d.year < e.year ∨ d.year = e.year ∧ d.month < e.month := by omega
  have hsame : d.year * 12 + (d.month - 1) = e.year * 12 + (e.month - 1) ↔
      d.year = e.year ∧ d.month = e.month := by omega
  have hday : d.day - 1 < e.day - 1 ↔ d.day < e.day := by omega
  rw [rank_eq, rank_eq, Nat.add_lt_add_iff_right, mul_add_lt_iff (by omega) (by omega), hless,
    hsame, hday]
  simp only [and_or_left, or_assoc, and_assoc]

theorem rank_eq_iff (d e : Day) :
    d.rank = e.rank ↔ d.year = e.year ∧ d.month = e.month ∧ d.day = e.day := by
  have hless := rank_lt_iff d e
  have hgreater := rank_lt_iff e d
  omega

end Day

namespace Instant

/-- A number that grows from minute to minute. -/
def rank (i : Instant) : Nat := i.day.rank * 1440 + i.second / 60

theorem toList_format (i : Instant) :
    i.format.toList = padded 4 i.day.year ++ '.' :: (padded 2 i.day.month ++ '.' ::
      (padded 2 i.day.day ++ ' ' :: (padded 2 i.hour ++ ':' :: (padded 2 i.minute ++ [])))) := by
  rw [format, Day.format, String.toList_append, String.toList_ofList, String.toList_ofList]
  simp only [List.append_assoc, List.cons_append, List.append_nil]

theorem rank_lt_iff (i j : Instant) :
    i.rank < j.rank ↔ i.day.year < j.day.year ∨ i.day.year = j.day.year ∧
      (i.day.month < j.day.month ∨ i.day.month = j.day.month ∧
        (i.day.day < j.day.day ∨ i.day.day = j.day.day ∧
          (i.hour < j.hour ∨ i.hour = j.hour ∧ i.minute < j.minute))) := by
  have hminutes : i.second / 60 < j.second / 60 ↔
      i.hour < j.hour ∨ i.hour = j.hour ∧ i.minute < j.minute := by
    have hhour : i.hour = i.second / 60 / 60 := (Nat.div_div_eq_div_mul _ 60 60).symm
    have hhour' : j.hour = j.second / 60 / 60 := (Nat.div_div_eq_div_mul _ 60 60).symm
    rw [hhour, hhour', minute, minute]
    exact lt_iff_div_mod 60 _ _
  have hsplit : i.rank < j.rank ↔
      i.day.rank < j.day.rank ∨ i.day.rank = j.day.rank ∧ i.second / 60 < j.second / 60 := by
    have := i.second_lt
    have := j.second_lt
    exact mul_add_lt_iff (by omega) (by omega)
  rw [hsplit, Day.rank_lt_iff, Day.rank_eq_iff, hminutes]
  simp only [and_or_left, or_assoc, and_assoc]

/-- Stamps with a year of four digits are in the order of the minutes. -/
theorem format_lt_iff {i j : Instant} (hi : i.day.year ≤ 9999) (hj : j.day.year ≤ 9999) :
    i.format < j.format ↔ i.rank < j.rank := by
  have hmonth : ∀ k : Instant, k.day.month < 10 ^ 2 := by
    intro k
    have := k.day.month_le
    omega
  have hday : ∀ k : Instant, k.day.day < 10 ^ 2 := by
    intro k
    have := Nat.le_trans k.day.day_le (daysIn_le _ _)
    omega
  have hhour : ∀ k : Instant, k.hour < 10 ^ 2 := by
    intro k
    have := k.second_lt
    unfold hour
    omega
  have hminute : ∀ k : Instant, k.minute < 10 ^ 2 := by
    intro k
    unfold minute
    omega
  rw [String.lt_iff_toList_lt, toList_format, toList_format,
    padded_append_lt_iff (by omega) (by omega), List.cons_lt_cons_iff,
    padded_append_lt_iff (hmonth i) (hmonth j), List.cons_lt_cons_iff,
    padded_append_lt_iff (hday i) (hday j), List.cons_lt_cons_iff,
    padded_append_lt_iff (hhour i) (hhour j), List.cons_lt_cons_iff,
    padded_append_lt_iff (hminute i) (hminute j), rank_lt_iff]
  simp only [lt_irrefl, true_and, false_or, and_false, or_false]

theorem format_le_iff {i j : Instant} (hi : i.day.year ≤ 9999) (hj : j.day.year ≤ 9999) :
    i.format ≤ j.format ↔ i.rank ≤ j.rank := by
  rw [← not_lt, format_lt_iff hj hi, not_lt]

end Instant

/-! ### Clocks -/

/-- The first day of the calendar. -/
def Day.first : Day :=
  ⟨1, 1, 1, by omega, by omega, by omega, by omega, daysIn_pos _ _⟩

/-- The day `n` days after the first. -/
def Day.ofNumber (n : Nat) : Day := Day.next^[n] Day.first

theorem Day.rank_ofNumber_strictMono : StrictMono fun n => (Day.ofNumber n).rank := by
  refine strictMono_nat_of_lt_succ ?_
  intro n
  show (Day.ofNumber n).rank < (Day.next^[n + 1] Day.first).rank
  rw [Function.iterate_succ_apply']
  exact Day.rank_lt_next _

namespace Zone

/--
What the clocks of the zone show `t` seconds after the first day of the calendar has begun
in UTC, unless that day has not begun for them.
-/
def clock (zone : Zone) (t : Int) : Option Instant :=
  if 0 ≤ t + zone.offset then
    some ⟨Day.ofNumber ((t + zone.offset) / 86400).toNat, ((t + zone.offset) % 86400).toNat,
      by omega⟩
  else none

/-- The minute that is then, counted from the first of the calendar. -/
def minute (zone : Zone) (t : Int) : Int := (t + zone.offset) / 60

theorem rank_clock {zone : Zone} {t t' : Int} {i j : Instant} (hi : zone.clock t = some i)
    (hj : zone.clock t' = some j) : i.rank < j.rank ↔ zone.minute t < zone.minute t' := by
  unfold clock at hi hj
  split at hi
  · split at hj
    · obtain rfl := Option.some.inj hi
      obtain rfl := Option.some.inj hj
      have hdays := Day.rank_ofNumber_strictMono.lt_iff_lt
        (a := ((t + zone.offset) / 86400).toNat) (b := ((t' + zone.offset) / 86400).toNat)
      have hsame := Day.rank_ofNumber_strictMono.injective.eq_iff
        (a := ((t + zone.offset) / 86400).toNat) (b := ((t' + zone.offset) / 86400).toNat)
      show (Day.ofNumber _).rank * 1440 + ((t + zone.offset) % 86400).toNat / 60 <
          (Day.ofNumber _).rank * 1440 + ((t' + zone.offset) % 86400).toNat / 60 ↔
        (t + zone.offset) / 60 < (t' + zone.offset) / 60
      rw [mul_add_lt_iff (by omega) (by omega), hdays, hsame]
      omega
    · cases hj
  · cases hi

/-- The stamps of one zone are in the order of the minutes. -/
theorem format_clock_le_iff {zone : Zone} {t t' : Int} {i j : Instant}
    (hi : zone.clock t = some i) (hj : zone.clock t' = some j) (hyear : i.day.year ≤ 9999)
    (hyear' : j.day.year ≤ 9999) : i.format ≤ j.format ↔ zone.minute t ≤ zone.minute t' := by
  rw [Instant.format_le_iff hyear hyear', ← not_lt, rank_clock hj hi, not_lt]

end Zone

end Calendar
