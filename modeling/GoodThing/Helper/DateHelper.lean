/-
Points in time and their milliseconds, in the extension of `Date`.

A `Date` holds its seconds as a `Double`.  Here they are exact, so that what is lost
between the two conversions is lost by them and not by the format.
-/
import GoodThing.Lib.Rounding
import GoodThing.Lib.Swift
import Mathlib.Data.Rat.Floor

namespace GoodThing

structure Date where
  timeIntervalSince1970 : ℚ
  deriving DecidableEq

namespace Date

/-- `init(milliseconds:)`, whose division is one of `Int64`. -/
def ofMilliseconds (milliseconds : Int64) : Date where
  timeIntervalSince1970 := (milliseconds / 1000).toInt

/-- The milliseconds, unless `Int64` has no room for them and the app stops. -/
def millisecondsSince1970 (d : Date) : Option Int64 :=
  Swift.exactly (Swift.rounded (d.timeIntervalSince1970 * 1000))

end Date

end GoodThing
