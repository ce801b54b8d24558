import Rx7.Engine.Gps
import Rx7.Foundations.LastEntry

/-!
# The recorded fixes

A run of `GpsManager` is a list of updates, each with the location that the location manager has
then, if any, and the time it is handled at. An update with a location records a fix
(`recorded`). The two arrays are the columns of the recorded fixes (`eq_ofFixes`), so that the
lookup, which searches the one and indexes the other, finds the last fix that is not later than
the time it is asked for (`findLocationForTime_latest`).
-/

namespace Rx7

open LastEntry

structure Fix where
  timestamp : ℤ
  location : CLLocationCoordinate2D

/-- A call of `locationManager(_:didUpdateLocations:)`. -/
structure LocationUpdate where
  location : Option CLLocationCoordinate2D
  now : ℤ

namespace LocationUpdate

/-- The fix that an update records. -/
def fix (update : LocationUpdate) : Option Fix :=
  update.location.map fun location => ⟨update.now, location⟩

/-- The fixes that updates record, oldest first. -/
def recorded (updates : List LocationUpdate) : List Fix := updates.filterMap fix

end LocationUpdate

open LocationUpdate

namespace GpsManager

/-- The location manager's callbacks, in order. -/
def updated (self : GpsManager) (updates : List LocationUpdate) : GpsManager :=
  updates.foldl (fun gps update => gps.didUpdateLocations update.location update.now) self

/-- The two arrays of a list of fixes. -/
def ofFixes (fixes : List Fix) : GpsManager where
  timestampArray := fixes.map Fix.timestamp
  locationArray := fixes.map Fix.location

/-- The last of the fixes that are not later than a time, and its index. -/
def latestFix (fixes : List Fix) (time : ℤ) : Option (Fix × ℕ) :=
  lastEntry (fun fix => decide (fix.timestamp ≤ time)) fixes

variable {fixes : List Fix}

theorem didUpdateLocations_ofFixes (fixes : List Fix) (update : LocationUpdate) :
    (ofFixes fixes).didUpdateLocations update.location update.now =
      ofFixes (fixes ++ update.fix.toList) := by
  cases h : update.location <;> simp [didUpdateLocations, ofFixes, fix, h]

/-- The arrays are those of the recorded fixes in every run. -/
theorem updated_ofFixes (fixes : List Fix) (updates : List LocationUpdate) :
    (ofFixes fixes).updated updates = ofFixes (fixes ++ recorded updates) := by
  induction updates generalizing fixes with
  | nil => simp [updated, recorded]
  | cons update updates ih =>
    have hstep : (ofFixes fixes).updated (update :: updates) =
        ((ofFixes fixes).didUpdateLocations update.location update.now).updated updates := rfl
    rw [hstep, didUpdateLocations_ofFixes, ih, List.append_assoc, recorded, recorded,
      List.filterMap_cons]
    cases update.fix <;> rfl

theorem updated_eq_ofFixes (updates : List LocationUpdate) :
    updated {} updates = ofFixes (recorded updates) :=
  updated_ofFixes [] updates

/-- The loop below an index of the arrays finds the last such fix below it. -/
theorem findBelow_ofFixes (time : ℤ) {n : ℕ} (h : n ≤ fixes.length) :
    (ofFixes fixes).findBelow time n =
      .ok ((latestFix (fixes.take n) time).map fun f => f.1.location) := by
  induction n with
  | zero => rfl
  | succ index ih =>
    have hindex : index < fixes.length := h
    have htimestamp : (ofFixes fixes).timestampArray[index]? = some fixes[index].timestamp := by
      simp [ofFixes, hindex]
    have hlocation : (ofFixes fixes).locationArray[index]? = some fixes[index].location := by
      simp [ofFixes, hindex]
    rw [findBelow, htimestamp, List.take_succ_eq_append_getElem hindex, latestFix, lastEntry_concat]
    by_cases hlater : fixes[index].timestamp > time
    · have hnot : ¬ fixes[index].timestamp ≤ time := not_le.2 hlater
      simp only [hlater, if_true, hnot, decide_false, Bool.false_eq_true, if_false]
      exact ih hindex.le
    · simp [hlater, not_lt.1 hlater, hlocation]

theorem findLocationForTime_ofFixes (time : ℤ) :
    (ofFixes fixes).findLocationForTime time =
      .ok ((latestFix fixes time).map fun f => f.1.location) := by
  cases fixes with
  | nil => rfl
  | cons fix fixes =>
    have hfind := findBelow_ofFixes time (le_refl (fix :: fixes).length)
    rw [List.take_length] at hfind
    rw [← hfind, findLocationForTime, if_pos ⟨by simp [ofFixes], by simp [ofFixes]⟩]
    simp [ofFixes]

/-- **A lookup finds the latest fix that is not in the future.** After any updates, a lookup does
not trap and finds the location of the last recorded fix at or before its time, and nothing
exactly where there is none. Where the clock never ran backwards, no other of these fixes is
later; and a lookup for a later time never finds an earlier recorded fix. -/
theorem findLocationForTime_latest (updates : List LocationUpdate) (time : ℤ) :
    (updated {} updates).findLocationForTime time =
        .ok ((latestFix (recorded updates) time).map fun f => f.1.location) ∧
      ((updated {} updates).findLocationForTime time = .ok none ↔
        ∀ fix ∈ recorded updates, time < fix.timestamp) ∧
      ((recorded updates).Pairwise (·.timestamp ≤ ·.timestamp) →
        ∀ f ∈ latestFix (recorded updates) time, ∀ fix ∈ recorded updates,
          fix.timestamp ≤ time → fix.timestamp ≤ f.1.timestamp) ∧
      ∀ time', time ≤ time' → ∀ f ∈ latestFix (recorded updates) time,
        ∃ f' ∈ latestFix (recorded updates) time', f.2 ≤ f'.2 := by
  rw [updated_eq_ofFixes, findLocationForTime_ofFixes]
  refine ⟨rfl, ?_, fun hsorted f hf fix hfix ht => ?_, fun time' ht f hf => ?_⟩
  · rw [Except.ok.injEq, Option.map_eq_none_iff, latestFix, lastEntry_eq_none_iff]
    simp only [decide_eq_false_iff_not, not_le]
  · have hrefl : Std.Refl fun a b : Fix => a.timestamp ≤ b.timestamp := ⟨fun _ => le_rfl⟩
    exact rel_lastEntry hsorted hf fix hfix (decide_eq_true ht)
  · refine lastEntry_mono (fun fix h => ?_) hf
    exact decide_eq_true ((of_decide_eq_true h).trans ht)

end GpsManager

end Rx7
