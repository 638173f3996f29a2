/-
Days of the Gregorian calendar and how they are printed.

A day is a year from 1 on, a month and a day of the month, and carries the proof
that there is such a day.  `next` and `previous?` walk through the calendar, which
is all the arithmetic on days the development uses; the first day has no previous
one.

Printed as `yyyy.MM.dd`, different days look different, and `parse?` reads such a text
and no other.  Each number is padded with zeros and read back by `Nat.ofDigitChars`, and
the dots tell where one ends.
-/
import GoodThing.Lib.Text
import Mathlib.Data.Nat.Basic

namespace Calendar

/-! ### Days -/

def isLeap (year : Nat) : Bool :=
  year % 4 == 0 && (year % 100 != 0 || year % 400 == 0)

def daysIn (year month : Nat) : Nat :=
  match month with
  | 2 => if isLeap year then 29 else 28
  | 4 | 6 | 9 | 11 => 30
  | _ => 31

structure Day where
  year : Nat
  month : Nat
  day : Nat
  year_pos : 0 < year
  month_pos : 0 < month
  month_le : month ≤ 12
  day_pos : 0 < day
  day_le : day ≤ daysIn year month
  deriving DecidableEq

theorem daysIn_pos (year month : Nat) : 0 < daysIn year month := by
  unfold daysIn
  split <;> try split
  all_goals omega

theorem daysIn_le (year month : Nat) : daysIn year month ≤ 31 := by
  unfold daysIn
  split <;> try split
  all_goals omega

namespace Day

/-- The day after. -/
def next (d : Day) : Day :=
  if h : d.day < daysIn d.year d.month then
    ⟨d.year, d.month, d.day + 1, d.year_pos, d.month_pos, d.month_le, by omega, h⟩
  else if h : d.month < 12 then
    ⟨d.year, d.month + 1, 1, d.year_pos, by omega, h, Nat.one_pos, daysIn_pos _ _⟩
  else
    ⟨d.year + 1, 1, 1, by omega, Nat.one_pos, by omega, Nat.one_pos, daysIn_pos _ _⟩

/-- The day before, unless the calendar starts here. -/
def previous? (d : Day) : Option Day :=
  if h : 1 < d.day then
    some ⟨d.year, d.month, d.day - 1, d.year_pos, d.month_pos, d.month_le, by omega,
      by have := d.day_le; omega⟩
  else if h : 1 < d.month then
    some ⟨d.year, d.month - 1, daysIn d.year (d.month - 1), d.year_pos, by omega,
      by have := d.month_le; omega, daysIn_pos _ _, Nat.le_refl _⟩
  else if h : 1 < d.year then
    some ⟨d.year - 1, 12, 31, by omega, by omega, Nat.le_refl _, by omega, Nat.le_refl _⟩
  else none

/-- The day before the next is this one. -/
theorem previous?_next (d : Day) : d.next.previous? = some d := by
  obtain ⟨year, month, day, hy, hm, hm', hd, hd'⟩ := d
  unfold next
  by_cases h1 : day < daysIn year month
  · rw [dif_pos h1]
    unfold previous?
    rw [dif_pos (show 1 < day + 1 by omega)]
    simp
  · have hlast : day = daysIn year month := by omega
    rw [dif_neg h1]
    by_cases h2 : month < 12
    · rw [dif_pos h2]
      unfold previous?
      rw [dif_neg (show ¬ 1 < 1 by omega), dif_pos (show 1 < month + 1 by omega)]
      simp [hlast]
    · have hdec : month = 12 := by omega
      rw [dif_neg h2]
      unfold previous?
      rw [dif_neg (show ¬ 1 < 1 by omega), dif_neg (show ¬ 1 < 1 by omega),
        dif_pos (show 1 < year + 1 by omega)]
      subst hdec
      obtain rfl : day = 31 := hlast
      rfl

/-- The day after the previous one is this one. -/
theorem next_of_previous? {d e : Day} (h : d.previous? = some e) : e.next = d := by
  obtain ⟨year, month, day, hy, hm, hm', hd, hd'⟩ := d
  unfold previous? at h
  by_cases h1 : 1 < day
  · rw [dif_pos h1] at h
    obtain rfl := Option.some.inj h
    unfold next
    rw [dif_pos (show day - 1 < daysIn year month by omega)]
    simp only [Day.mk.injEq, true_and]
    omega
  · have hfirst : day = 1 := by omega
    rw [dif_neg h1] at h
    by_cases h2 : 1 < month
    · rw [dif_pos h2] at h
      obtain rfl := Option.some.inj h
      unfold next
      rw [dif_neg (Nat.lt_irrefl _), dif_pos (show month - 1 < 12 by omega)]
      simp only [Day.mk.injEq, true_and]
      omega
    · have hjan : month = 1 := by omega
      rw [dif_neg h2] at h
      by_cases h3 : 1 < year
      · rw [dif_pos h3] at h
        obtain rfl := Option.some.inj h
        unfold next
        rw [dif_neg (show ¬ 31 < daysIn (year - 1) 12 from Nat.lt_irrefl 31),
          dif_neg (Nat.lt_irrefl 12)]
        simp only [Day.mk.injEq]
        omega
      · rw [dif_neg h3] at h
        cases h

/-- A number that grows from day to day. -/
def rank (d : Day) : Nat := (d.year * 12 + d.month) * 31 + d.day

theorem rank_lt_next (d : Day) : d.rank < d.next.rank := by
  have hle := Nat.le_trans d.day_le (daysIn_le d.year d.month)
  have hm := d.month_le
  unfold next rank
  by_cases h1 : d.day < daysIn d.year d.month
  · rw [dif_pos h1]
    show _ < (d.year * 12 + d.month) * 31 + (d.day + 1)
    omega
  · rw [dif_neg h1]
    by_cases h2 : d.month < 12
    · rw [dif_pos h2]
      show _ < (d.year * 12 + (d.month + 1)) * 31 + 1
      omega
    · rw [dif_neg h2]
      show _ < ((d.year + 1) * 12 + 1) * 31 + 1
      omega

theorem next_ne (d : Day) : d.next ≠ d := by
  intro h
  have := rank_lt_next d
  rw [h] at this
  omega

theorem next_next_ne (d : Day) : d.next.next ≠ d := by
  intro h
  have h1 := rank_lt_next d
  have h2 := rank_lt_next d.next
  rw [h] at h2
  omega

end Day

/-! ### Printing -/

/-- A number in decimal, padded with zeros to the width. -/
def padded (width n : Nat) : List Char :=
  List.replicate (width - (Nat.toDigits 10 n).length) '0' ++ Nat.toDigits 10 n

theorem ofDigitChars_padded (width n : Nat) : Nat.ofDigitChars 10 (padded width n) 0 = n := by
  unfold padded
  rw [Nat.ofDigitChars_append, Nat.ofDigitChars_replicate_zero, Nat.mul_zero]
  exact Nat.ofDigitChars_ten_toDigits

theorem padded_injective {width n m : Nat} (h : padded width n = padded width m) : n = m := by
  rw [← ofDigitChars_padded width n, h, ofDigitChars_padded]

theorem isDigit_of_mem_padded {width n : Nat} {c : Char} (h : c ∈ padded width n) :
    c.isDigit = true := by
  rcases List.mem_append.mp h with hzero | hdigit
  · rw [List.eq_of_mem_replicate hzero]
    rfl
  · exact Nat.isDigit_of_mem_toDigits (by omega) (by omega) hdigit

/-- A separator is in no number. -/
theorem notMem_padded {c : Char} (hc : c.isDigit = false) (width n : Nat) : c ∉ padded width n := by
  intro h
  rw [isDigit_of_mem_padded h] at hc
  cases hc

/-- The day as `yyyy.MM.dd`. -/
def Day.format (d : Day) : String :=
  String.ofList (padded 4 d.year ++ '.' :: (padded 2 d.month ++ '.' :: padded 2 d.day))

theorem Day.format_injective {d e : Day} (h : d.format = e.format) : d = e := by
  have hchars := String.ofList_injective h
  have hdot : ∀ width n, '.' ∉ padded width n := notMem_padded rfl
  obtain ⟨hyear, hrest⟩ := Text.append_sep_inj (hdot _ _) (hdot _ _) hchars
  obtain ⟨hmonth, hday⟩ := Text.append_sep_inj (hdot _ _) (hdot _ _) hrest
  obtain ⟨year, month, day, _⟩ := d
  obtain ⟨year', month', day', _⟩ := e
  obtain rfl : year = year' := padded_injective hyear
  obtain rfl : month = month' := padded_injective hmonth
  obtain rfl : day = day' := padded_injective hday
  rfl

theorem Day.toList_format (d : Day) :
    d.format.toList = padded 4 d.year ++ '.' :: (padded 2 d.month ++ '.' :: padded 2 d.day) :=
  String.toList_ofList

/-- A day is printed with digits and dots only. -/
theorem Day.notMem_format {c : Char} (hc : c.isDigit = false) (hdot : c ≠ '.') (d : Day) :
    c ∉ d.format.toList := by
  rw [Day.toList_format]
  simp [hdot, notMem_padded hc]

/-! ### Reading -/

/-- The day with these numbers, if there is one. -/
def Day.ofNumbers? (year month day : Nat) : Option Day :=
  if h : 0 < year ∧ 0 < month ∧ month ≤ 12 ∧ 0 < day ∧ day ≤ daysIn year month then
    some ⟨year, month, day, h.1, h.2.1, h.2.2.1, h.2.2.2.1, h.2.2.2.2⟩
  else none

theorem Day.ofNumbers?_self (d : Day) : Day.ofNumbers? d.year d.month d.day = some d := by
  unfold Day.ofNumbers?
  rw [dif_pos ⟨d.year_pos, d.month_pos, d.month_le, d.day_pos, d.day_le⟩]

/-- The day a text of the form `yyyy.MM.dd` stands for. -/
def Day.parse? (text : String) : Option Day := do
  let (year, rest) ← Text.cut '.' text.toList
  let (month, day) ← Text.cut '.' rest
  let d ← Day.ofNumbers? (Nat.ofDigitChars 10 year 0) (Nat.ofDigitChars 10 month 0)
    (Nat.ofDigitChars 10 day 0)
  if d.format = text then some d else none

/-- What is printed is read back. -/
theorem Day.parse?_format (d : Day) : Day.parse? d.format = some d := by
  unfold Day.parse?
  rw [Day.toList_format, Text.cut_append (notMem_padded rfl _ _)]
  simp only [Option.bind_eq_bind, Option.bind_some]
  rw [Text.cut_append (notMem_padded rfl _ _)]
  simp only [Option.bind_some, ofDigitChars_padded, Day.ofNumbers?_self, if_true]

/-- Nothing else is read. -/
theorem Day.format_of_parse? {text : String} {d : Day} (h : Day.parse? text = some d) :
    d.format = text := by
  unfold Day.parse? at h
  simp only [Option.bind_eq_bind, Option.bind_eq_some_iff] at h
  obtain ⟨_, -, _, -, d', -, heq⟩ := h
  split at heq
  · rename_i hformat
    rw [← Option.some.inj heq]
    exact hformat
  · cases heq

end Calendar
