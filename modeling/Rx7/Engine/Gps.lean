import Rx7.Engine.Point
import Rx7.Swift.Data

/-!
# The location history

`GpsManager` appends each location fix, with the time it was handled at, to two arrays, and looks
a location up by time: the backward loop of `findLocationForTime` skips the later timestamps and
answers with the location at the first index that is not later.
-/

namespace Rx7

structure GpsManager where
  timestampArray : List ℤ := []
  locationArray : List CLLocationCoordinate2D := []

namespace GpsManager

variable (self : GpsManager)

/-- The loop of `findLocationForTime` over the indices below `count`, the largest first. -/
def findBelow (time : ℤ) : ℕ → Except Trap (Option CLLocationCoordinate2D)
  | 0 => .ok none
  | index + 1 =>
    match self.timestampArray[index]? with
    | none => .error .indexOutOfRange
    | some timestamp =>
      if timestamp > time then findBelow time index
      else
        match self.locationArray[index]? with
        | none => .error .indexOutOfRange
        | some location => .ok (some location)

def findLocationForTime (time : ℤ) : Except Trap (Option CLLocationCoordinate2D) :=
  if self.timestampArray.length > 0 ∧ self.locationArray.length > 0 then
    self.findBelow time self.timestampArray.length
  else .ok none

/-- `locationManager(_:didUpdateLocations:)`, handled `now` milliseconds after 1970, where the
location manager's present location is `location`. -/
def didUpdateLocations (location : Option CLLocationCoordinate2D) (now : ℤ) : GpsManager :=
  match location with
  | some location =>
    { timestampArray := self.timestampArray ++ [now]
      locationArray := self.locationArray ++ [location] }
  | none => self

end GpsManager

end Rx7
