import Rx7.Engine.Gauge
import Rx7.Foundations.Window
import Rx7.Swift.Text

/-!
# The chart of a gauge

The view model of a gauge observes `current`. Each point that has a value for the gauge's key makes
it show the value's text and, where the gauge has a chart, adds the number that the text spells to
the chart's data set, at the next position; of more than 30 entries the first one is removed.

The history of the points that were delivered says what the gauge shows: the data set is the
window of the last 30 of its samples (`chart_window`). The text of a value is read back as the
`Double` next to the value where voltages are tenths (`numberValue_eq`), which they are in every
point that the state manager publishes (`inTenths_current`). So an integer of more than 53 binary
digits is not shown as it is (`chart_rounds`).
-/

namespace Rx7

open EngineDataPoint Transition

structure ChartDataEntry where
  x : Double
  y : Double
  deriving DecidableEq

/-- The string interpolation of a value. -/
def EngineDataPoint.Value.description : Value → String
  | .int value => toString value
  | .double value => Swift.describeDouble value
  | .bool value => toString value

/-- The number of a value that is one. -/
def EngineDataPoint.Value.number : Value → Option ℚ
  | .int value => some value
  | .double value => some value
  | .bool _ => none

/-- The number of a value that is one, as a `Double`. -/
def EngineDataPoint.Value.asDouble (value : Value) : Option Double :=
  value.number.map Swift.nearestDouble

structure EngineDataCollectionViewCellViewModel where
  value : String := ""
  dataset : List ChartDataEntry := []
  shouldUpdateChart : Bool := false
  shouldDisplayChart : Bool
  iterator : Double := 1

namespace EngineDataCollectionViewCellViewModel

def maxChartDatapoints : ℕ := 30

/-- `init(gauge:)`, before its observer is called. -/
def ofGauge (gauge : EngineDataItem) : EngineDataCollectionViewCellViewModel where
  shouldDisplayChart := gauge.shouldDisplayChart

variable (self : EngineDataCollectionViewCellViewModel) (key : EngineDataItem)

/-- The observer of `setupObservers(forKey:)`. -/
def observe (engineData : Option EngineDataPoint) : EngineDataCollectionViewCellViewModel :=
  match item key engineData with
  | none => self
  | some item =>
    let self := { self with value := item.description }
    if self.shouldDisplayChart then
      match Swift.double item.description with
      | none => self
      | some numberValue =>
        let dataset := self.dataset ++ [⟨self.iterator, numberValue⟩]
        { self with
          dataset := if dataset.length > maxChartDatapoints then dataset.eraseIdx 0 else dataset
          iterator := self.iterator + 1
          shouldUpdateChart := !self.shouldUpdateChart }
    else self

/-- The view model of a gauge after the points that were delivered to its observer. -/
def observed (delivered : List (Option EngineDataPoint)) : EngineDataCollectionViewCellViewModel :=
  delivered.foldl (fun self engineData => self.observe key engineData) (ofGauge key)

/-- The number that a delivered point has for the key: `Double("\(item)")`. -/
def numberValue (engineData : Option EngineDataPoint) : Option Double :=
  (item key engineData).bind fun item => Swift.double item.description

/-- The numbers that the delivered points had for the key, in order. -/
def samples (delivered : List (Option EngineDataPoint)) : List Double :=
  delivered.filterMap (numberValue key)

/-- Samples at the positions 1, 2 and so on. -/
def entries (samples : List Double) : List ChartDataEntry :=
  samples.zipIdx 1 |>.map fun (y, x) => ⟨x, y⟩

/-- The text of the latest value that the delivered points had for the key. -/
def latestText (delivered : List (Option EngineDataPoint)) : String :=
  ((delivered.filterMap (item key)).getLast?.map Value.description).getD ""

/-! ## What the observer does -/

section

variable {self} {key} {p : Option EngineDataPoint} {delivered : List (Option EngineDataPoint)}

theorem observe_of_item_none (h : item key p = none) : self.observe key p = self := by
  rw [observe, h]

theorem observed_concat :
    observed key (delivered ++ [p]) = (observed key delivered).observe key p := by
  rw [observed, observed, List.foldl_append, List.foldl_cons, List.foldl_nil]

theorem samples_concat :
    samples key (delivered ++ [p]) = samples key delivered ++ (numberValue key p).toList := by
  rw [samples, samples, List.filterMap_append]
  cases h : numberValue key p <;> simp [h]

theorem entries_concat (samples : List Double) (y : Double) :
    entries (samples ++ [y]) = entries samples ++ [⟨(samples.length : Double) + 1, y⟩] := by
  simp [entries, List.zipIdx_append, add_comm]

theorem latestText_concat_of_none (h : item key p = none) :
    latestText key (delivered ++ [p]) = latestText key delivered := by
  simp [latestText, h]

theorem latestText_concat_of_some {value : Value} (h : item key p = some value) :
    latestText key (delivered ++ [p]) = value.description := by
  simp [latestText, h]

/-- What a gauge with a chart shows, by the history of the points. -/
def shown (key : EngineDataItem) (delivered : List (Option EngineDataPoint)) :
    EngineDataCollectionViewCellViewModel where
  value := latestText key delivered
  dataset := (entries (samples key delivered)).rtake maxChartDatapoints
  shouldUpdateChart := decide ((samples key delivered).length % 2 = 1)
  shouldDisplayChart := true
  iterator := (samples key delivered).length + 1

theorem observe_shown :
    (shown key delivered).observe key p = shown key (delivered ++ [p]) := by
  cases hitem : item key p with
  | none =>
    have hnumber : numberValue key p = none := by rw [numberValue, hitem, Option.bind_none]
    rw [observe_of_item_none hitem, shown, shown, samples_concat, hnumber, Option.toList_none,
      List.append_nil, latestText_concat_of_none hitem]
  | some value =>
    have hnumber : numberValue key p = Swift.double value.description := by
      rw [numberValue, hitem, Option.bind_some]
    cases hdouble : Swift.double value.description with
    | none =>
      rw [hdouble] at hnumber
      simp [observe, hitem, hdouble, shown, samples_concat, hnumber,
        latestText_concat_of_some hitem]
    | some y =>
      rw [hdouble] at hnumber
      have hdataset := Window.trim_rtake_concat maxChartDatapoints
        (entries (samples key delivered)) ⟨(samples key delivered).length + 1, y⟩
      have htoggled : ∀ n : ℕ, (!decide (n % 2 = 1)) = decide ((n + 1) % 2 = 1) := by
        intro n
        rcases Nat.mod_two_eq_zero_or_one n with h | h <;> simp [Nat.add_mod, h]
      rw [← entries_concat] at hdataset
      rw [observe, hitem, shown, shown, samples_concat, hnumber, latestText_concat_of_some hitem,
        Option.toList_some, List.length_append, List.length_singleton, ← htoggled, ← hdataset]
      simp only [if_true, hdouble, Nat.cast_add, Nat.cast_one, Window.trim]

/-- **A gauge with a chart shows the history of its points.** -/
theorem observed_eq (hkey : key.shouldDisplayChart = true) :
    observed key delivered = shown key delivered := by
  induction delivered using List.reverseRecOn with
  | nil =>
    rw [observed, List.foldl_nil, ofGauge, hkey]
    simp [shown, samples, latestText, entries, List.rtake]
  | append_singleton delivered p ih => rw [observed_concat, ih, observe_shown]

end

end EngineDataCollectionViewCellViewModel

/-! ## Values in tenths -/

namespace EngineDataPoint

/-- Every double of the point is a number of 16 bits in tenths. -/
def InTenths (point : EngineDataPoint) : Prop :=
  ∀ key value, point.field key = some (.double value) → ∃ n : ℕ, n < 2 ^ 16 ∧ value = n / 10

section

variable {data : Data}

theorem inTenths_of_decodeBasic : ∀ point, decodeBasic data = .ok point → InTenths point := by
  unfold decodeBasic
  repeat refine Trap.forall_ok_bind fun _ => ?_
  rintro _ ⟨⟩ key value h
  cases key <;> cases h
  exact ⟨_, UInt16.toNat_lt _, rfl⟩

theorem inTenths_of_decodeAdvanced : ∀ point, decodeAdvanced data = .ok point → InTenths point := by
  unfold decodeAdvanced
  repeat refine Trap.forall_ok_bind fun _ => ?_
  rintro _ ⟨⟩ key value h
  cases key <;> cases h
  all_goals exact ⟨_, UInt16.toNat_lt _, rfl⟩

theorem inTenths_of_decodeSensor : ∀ point, decodeSensor data = .ok point → InTenths point := by
  unfold decodeSensor
  repeat refine Trap.forall_ok_bind fun _ => ?_
  rintro _ ⟨⟩ key value h
  cases key <;> cases h
  all_goals exact ⟨_, UInt16.toNat_lt _, rfl⟩

theorem inTenths_of_fromData {point : EngineDataPoint} (h : fromData data = .ok point) :
    point.InTenths := by
  obtain rfl | h | h | h := fromData_cases h
  · intro key value hfield
    cases key <;> cases hfield
  · exact inTenths_of_decodeBasic point h
  · exact inTenths_of_decodeAdvanced point h
  · exact inTenths_of_decodeSensor point h

end

/-- The subscript reads some field of the point, not always the key's own. -/
theorem exists_field_eq_subscript (key : EngineDataItem) :
    ∃ key', ∀ point : EngineDataPoint, point.subscript key = point.field key' := by
  by_cases hkey : key = .fuelPumpControl
  · exact ⟨.fuelCorrection, fun point => hkey ▸ subscript_fuelPumpControl point⟩
  · exact ⟨key, subscript_of_ne hkey⟩

end EngineDataPoint

/-- The points that the state manager publishes are in tenths, in every run. -/
theorem Telemetry.inTenths_current {t : Telemetry} {events : List Event}
    (h : Run (ofPartial step) {} events t) : ∀ point ∈ t.engine.current, point.InTenths := by
  intro point hpoint key value hfield
  have hlatest := (current_run h).2 key
  rw [Option.mem_def.1 hpoint, Option.bind_some, hfield] at hlatest
  obtain ⟨p, hp, hvalue⟩ := List.mem_map.1 (LastWrite.mem_of_latest hlatest.symm)
  obtain ⟨e, -, he⟩ := List.mem_filterMap.1 hp
  obtain ⟨data, -, hd⟩ := fromData_of_point he
  exact inTenths_of_fromData hd key value hvalue

namespace EngineDataCollectionViewCellViewModel

theorem text_tenth {n : ℕ} (h : n < 2 ^ 16) :
    Swift.nearestDouble (n / 10 : ℚ) = n / 10 ∧
      Swift.double (Swift.describeDouble (n / 10)) = some (n / 10 : ℚ) := by
  have hlt : |(n : ℤ)| < 2 ^ 52 := by
    rw [Nat.abs_cast]
    omega
  have hcast : (n / 10 : ℚ) = ((n : ℤ) : ℚ) / 10 := by rw [Int.cast_natCast]
  exact hcast ▸ ⟨Swift.nearestDouble_tenth hlt, Swift.double_describeDouble hlt rfl⟩

section

variable {key : EngineDataItem} {p : Option EngineDataPoint}

/-- A double that a point in tenths has for a key. -/
theorem exists_tenth_of_item {value : ℚ} (hp : ∀ point ∈ p, point.InTenths)
    (h : item key p = some (.double value)) : ∃ n : ℕ, n < 2 ^ 16 ∧ value = n / 10 := by
  cases p with
  | none => cases h
  | some point =>
    obtain ⟨key', hkey'⟩ := exists_field_eq_subscript key
    exact hp point rfl key' value ((hkey' point).symm.trans h)

/-- The text of a value is read back as the `Double` next to it, where doubles are in tenths. -/
theorem numberValue_eq (hp : ∀ point ∈ p, point.InTenths) :
    numberValue key p = (item key p).bind Value.asDouble := by
  rw [numberValue]
  cases hitem : item key p with
  | none => rfl
  | some value =>
    cases value with
    | int n => exact Swift.double_toString_int n
    | double value =>
      obtain ⟨n, hn, rfl⟩ := exists_tenth_of_item hp hitem
      obtain ⟨hnearest, htext⟩ := text_tenth hn
      exact htext.trans (congrArg some hnearest.symm)
    | bool b => exact Swift.double_toString_bool b

/-- The integers up to `2 ^ 53` and the tenths are `Double`s. -/
theorem asDouble_eq_number (hp : ∀ point ∈ p, point.InTenths)
    (hint : ∀ n, item key p = some (.int n) → |n| ≤ 2 ^ 53) :
    (item key p).bind Value.asDouble = (item key p).bind Value.number := by
  cases hitem : item key p with
  | none => rfl
  | some value =>
    cases value with
    | int n => exact congrArg some (Swift.nearestDouble_eq_self (hint n hitem))
    | double value =>
      obtain ⟨n, hn, rfl⟩ := exists_tenth_of_item hp hitem
      exact congrArg some (text_tenth hn).1
    | bool b => rfl

end

theorem map_y_entries (samples : List Double) :
    (entries samples).map ChartDataEntry.y = samples := by
  simp [entries, Function.comp_def]

theorem map_x_entries (samples : List Double) :
    (entries samples).map ChartDataEntry.x =
      (List.range' 1 samples.length).map fun i : ℕ => (i : Double) := by
  rw [entries, List.map_map, ← List.zipIdx_map_snd 1, List.map_map]
  rfl

/-- **A gauge's chart is a window of its last 30 samples.** After `n` delivered points that had a
number for the gauge's key, the data set holds the last `min n 30` of the numbers, in order, at the
positions up to `n`. The text is that of the latest value, and a point without a value changes
nothing. Where doubles are in tenths the numbers are the `Double`s next to the values, and the
values themselves where the integers are at most `2 ^ 53`. -/
theorem chart_window {key : EngineDataItem} (hkey : key.shouldDisplayChart = true)
    (delivered : List (Option EngineDataPoint)) {n : ℕ}
    (hn : (samples key delivered).length = n) :
    (observed key delivered).dataset.map ChartDataEntry.y =
        (samples key delivered).drop (n - min n 30) ∧
      (observed key delivered).dataset.map ChartDataEntry.x =
        ((List.range' (n - min n 30 + 1) (min n 30)).map fun i : ℕ => (i : Double)) ∧
      ((observed key delivered).dataset.map ChartDataEntry.x).Pairwise (· < ·) ∧
      (observed key delivered).value = latestText key delivered ∧
      (∀ p, item key p = none → (observed key delivered).observe key p = observed key delivered) ∧
      ((∀ p ∈ delivered, ∀ point ∈ p, point.InTenths) →
        (samples key delivered = delivered.filterMap fun p => (item key p).bind Value.asDouble) ∧
        ((∀ p ∈ delivered, ∀ n, item key p = some (.int n) → |n| ≤ 2 ^ 53) →
          samples key delivered =
            delivered.filterMap fun p => (item key p).bind Value.number)) := by
  have hx : (observed key delivered).dataset.map ChartDataEntry.x =
      (List.range' (n - min n 30 + 1) (min n 30)).map fun i : ℕ => (i : Double) := by
    rw [observed_eq hkey, shown, ← Window.rtake_map, map_x_entries, Window.rtake_map, hn,
      Window.rtake_range', add_comm, maxChartDatapoints]
  refine ⟨?_, hx, ?_, ?_, fun p hp => observe_of_item_none hp, fun hp => ?_⟩
  · have hdrop : n - 30 = n - min n 30 := by omega
    rw [observed_eq hkey, shown, ← Window.rtake_map, map_y_entries, List.rtake, hn, ← hdrop,
      maxChartDatapoints]
  · rw [hx, List.pairwise_map]
    exact (List.pairwise_lt_range' _).imp fun h => Nat.cast_lt.2 h
  · rw [observed_eq hkey, shown]
  · have hsamples : samples key delivered =
        delivered.filterMap fun p => (item key p).bind Value.asDouble :=
      List.filterMap_congr fun p hmem => numberValue_eq (hp p hmem)
    refine ⟨hsamples, fun hint => hsamples.trans (List.filterMap_congr fun p hmem => ?_)⟩
    exact asDouble_eq_number (hp p hmem) (hint p hmem)

/-- No point yet, a speed, a point without one, and another speed. -/
def speeds : List (Option EngineDataPoint) :=
  [none, some { speed := some 40 }, some { rpm := some 900 }, some { speed := some 42 }]

theorem samples_speeds : samples .speed speeds = [40, 42] := by
  have hvalue : ∀ n : ℤ, |n| ≤ 2 ^ 53 →
      numberValue .speed (some { speed := some n }) = some (n : Double) := fun n hn =>
    (Swift.double_toString_int n).trans (congrArg some (Swift.nearestDouble_eq_self hn))
  have hnone : ∀ n : ℤ, numberValue .speed (some { rpm := some n }) = none := fun _ => rfl
  have hempty : numberValue .speed none = none := rfl
  have h40 := hvalue 40 (by decide)
  have h42 := hvalue 42 (by decide)
  simp [samples, speeds, h40, h42, hnone, hempty]

theorem chart_window_speeds :
    (observed .speed speeds).dataset.map ChartDataEntry.y =
        (samples .speed speeds).drop (2 - min 2 30) ∧
      (observed .speed speeds).dataset.map ChartDataEntry.x =
        ((List.range' (2 - min 2 30 + 1) (min 2 30)).map fun i : ℕ => (i : Double)) ∧
      ((observed .speed speeds).dataset.map ChartDataEntry.x).Pairwise (· < ·) ∧
      (observed .speed speeds).value = latestText .speed speeds ∧
      (∀ p, item .speed p = none →
        (observed .speed speeds).observe .speed p = observed .speed speeds) ∧
      ((∀ p ∈ speeds, ∀ point ∈ p, point.InTenths) →
        (samples .speed speeds = speeds.filterMap fun p => (item .speed p).bind Value.asDouble) ∧
        ((∀ p ∈ speeds, ∀ n, item .speed p = some (.int n) → |n| ≤ 2 ^ 53) →
          samples .speed speeds = speeds.filterMap fun p => (item .speed p).bind Value.number)) :=
  chart_window rfl speeds (by rw [samples_speeds]; rfl)

/-- A basic frame with six more bytes behind it, one of which is in the `Int` read for the rpm. -/
def overlong : Data :=
  .ofBytes (218 :: List.replicate 22 0 ++ [1, 0, 0, 0, 0, 0, 32, 0]) fun _ => 0

/-- The `Double` next to an rpm that has more than 53 binary digits is another number. -/
theorem chart_rounds :
    ∃ point, fromData overlong = .ok point ∧ EngineDataItem.rpm.shouldDisplayChart = true ∧
      ((observed .rpm [some point]).dataset.map ChartDataEntry.y = [2 ^ 53]) ∧
      ([some point].filterMap fun p => (item .rpm p).bind Value.number) = [2 ^ 53 + 1] := by
  have hrpm : (fromData overlong).map (fun point => point.rpm) = .ok (some (2 ^ 53 + 1)) := by
    decide
  cases hdata : fromData overlong with
  | error trap =>
    rw [hdata] at hrpm
    cases hrpm
  | ok point =>
    rw [hdata] at hrpm
    have hitem : item .rpm (some point) = some (.int (2 ^ 53 + 1)) :=
      congrArg (Option.map Value.int) (Except.ok.inj hrpm)
    have hround : Swift.nearestDouble ((2 ^ 53 + 1 : ℤ) : ℚ) = 2 ^ 53 := by
      rw [Swift.nearestDouble_intCast, Rounding.toSignificant_two_pow_add_one (by decide)]
    have hsamples : samples .rpm [some point] = [2 ^ 53] := by
      have hnumber : numberValue .rpm (some point) = some (2 ^ 53) := by
        rw [numberValue, hitem, ← hround]
        exact Swift.double_toString_int _
      simp [samples, hnumber]
    have hdataset : (observed .rpm [some point]).dataset = entries [2 ^ 53] := by
      rw [observed_eq rfl, shown, hsamples]
      rfl
    refine ⟨point, rfl, rfl, by rw [hdataset, map_y_entries], ?_⟩
    have hvalue : (item .rpm (some point)).bind Value.number = some (2 ^ 53 + 1) := by
      rw [hitem, Option.bind_some, Value.number]
      norm_num
    simp [hvalue]

end EngineDataCollectionViewCellViewModel

end Rx7
