/-
Instants, as the clocks of one time zone show them.

An instant is a day and a second of it.  Three texts are made of it: the day alone, the
day with hours and minutes, and the description, which is in UTC and is the only one
that depends on the zone.  The other two are never a day: where that has digits and dots
only, the one has a space and the other hyphens.
-/
import GoodThing.Lib.Calendar

namespace Calendar

/-- A day and a second of it. -/
structure Instant where
  day : Day
  second : Nat
  second_lt : second < 86400
  deriving DecidableEq

/-- How many seconds the clocks of a zone are ahead of UTC. -/
structure Zone where
  offset : Int
  offset_lt : offset < 86400
  lt_offset : -86400 < offset

namespace Instant

/-- The first second of a day. -/
def midnight (d : Day) : Instant := ⟨d, 0, by omega⟩

/--
The same instant on a clock that shows UTC.  The calendar starts with a day that none
comes before.
-/
def utc (zone : Zone) (i : Instant) : Instant :=
  if h : (i.second : Int) - zone.offset < 0 then
    ⟨i.day.previous?.getD i.day, (i.second - zone.offset + 86400).toNat,
      by have := zone.offset_lt; omega⟩
  else if h' : (i.second : Int) - zone.offset < 86400 then
    ⟨i.day, (i.second - zone.offset).toNat, by omega⟩
  else
    ⟨i.day.next, (i.second - zone.offset - 86400).toNat,
      by have := zone.lt_offset; have := i.second_lt; omega⟩

def hour (i : Instant) : Nat := i.second / 3600

def minute (i : Instant) : Nat := i.second / 60 % 60

/-- The instant as `yyyy.MM.dd HH:mm`. -/
def format (i : Instant) : String :=
  i.day.format ++ String.ofList (' ' :: (padded 2 i.hour ++ ':' :: padded 2 i.minute))

/-- The instant as `yyyy-MM-dd HH:mm:ss +0000`. -/
def description (zone : Zone) (i : Instant) : String :=
  let t := i.utc zone
  String.ofList (padded 4 t.day.year ++ '-' :: (padded 2 t.day.month ++ '-' ::
    (padded 2 t.day.day ++ ' ' :: (padded 2 t.hour ++ ':' ::
      (padded 2 t.minute ++ ':' :: (padded 2 (t.second % 60) ++ " +0000".toList))))))

theorem format_ne_day (i : Instant) (d : Day) : i.format ≠ d.format := by
  intro h
  have hspace : ' ' ∈ d.format.toList := by
    rw [← h, format, String.toList_append, String.toList_ofList]
    simp
  exact d.notMem_format rfl (by decide) hspace

/-- A description is not read as a day. -/
theorem parse?_description (zone : Zone) (i : Instant) :
    Day.parse? (i.description zone) = none := by
  refine Option.eq_none_iff_forall_ne_some.mpr fun d hd => ?_
  have hhyphen : '-' ∈ d.format.toList := by
    rw [Day.format_of_parse? hd, description, String.toList_ofList]
    simp
  exact d.notMem_format rfl (by decide) hhyphen

end Instant

end Calendar
