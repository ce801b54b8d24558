import Rx7.Engine.Item
import Rx7.Swift.Text

/-!
# Thresholds

A gauge can have a `Threshold`, a value above or below which it warns and one at which it is
critical. `ThresholdConfigManager` keeps them, and hands them to the list of thresholds, whose rows
spell them out (`ThresholdConfigTableViewCellViewModel`), and to the editor. How a threshold of an
item is edited, in which bounds and steps, is a table (`EngineDataItem.editThresholdParameters`).
-/

namespace Rx7

inductive ThresholdType
  | warning | critical
  deriving DecidableEq

def ThresholdType.rawValue : ThresholdType → String
  | .warning => "warning"
  | .critical => "critical"

structure ThresholdItem where
  enabled : Bool
  greaterThan : Bool
  value : ℚ
  deriving DecidableEq

structure Threshold where
  warning : ThresholdItem
  critical : ThresholdItem
  deriving DecidableEq

structure EditThresholdParameters where
  usesIntegers : Bool
  min : ℚ
  max : ℚ
  step : ℚ
  deriving DecidableEq

namespace EditThresholdParameters

/-- `init(min:max:step:)` of three `Double`s. -/
def ofDouble (min max step : ℚ) : EditThresholdParameters where
  usesIntegers := false
  min := min
  max := max
  step := step

/-- `init(min:max:step:)` of three `Int`s. -/
def ofInt (min max step : ℤ) : EditThresholdParameters where
  usesIntegers := true
  min := min
  max := max
  step := step

end EditThresholdParameters

/-- How the thresholds of an item are edited. -/
def EngineDataItem.editThresholdParameters : EngineDataItem → EditThresholdParameters
  | .rpm => .ofInt 0 30000 10
  | .boost => .ofInt (-5000) 5000 10
  | .waterTemp | .airTemp => .ofInt (-50) 200 1
  | .knock | .injectorDuty | .intakePressure | .mapSensorVoltage | .tpsVoltage
  | .primaryInjectorPulse | .fuelCorrection | .fuelTemp | .mopPosition | .boostTP | .boostWG
  | .intakeTemp | .iscvDuty | .o2Voltage | .secondaryInjectorPulse | .tpsFullRangeVoltage
  | .tpsNarrowRangeVoltage | .mopPositionSensorVoltage | .waterTempSensorVoltage
  | .intakeAirTempSensorVoltage | .fuelTempSensorVoltage | .o2SensorVoltage | .starterSwitch
  | .airConditioningSwitch | .powerSteeringPressureSwitch | .neutralSwitch | .clutchSwitch
  | .stopSwitch | .catalyzerThermoSensorSwitch | .electricalLoadSwitch
  | .exhaustTempWarningIndicator | .fuelPumpOperation | .fuelPumpControl | .airPumpRelay
  | .portAirControl | .chargeControl | .turboControl | .pressureRegulatorControl => .ofInt 0 100 1
  | .leadingIgnition | .trailingIgnition => .ofInt (-100) 100 1
  | .speed => .ofInt 0 300 1
  | .batteryVoltage => .ofDouble 0 20 (1 / 10)

/-- The manager, over the type `κ` of the closures it is given. -/
structure ThresholdConfigManager (κ : Type) where
  hasFetchedData : Bool := false
  itemToGetAfterFetch : Option EngineDataItem := none
  callbackAfterFetch : Option κ := none
  thresholds : EngineDataItem → Option Threshold := fun _ => none

namespace ThresholdConfigManager

variable {κ : Type}

/-- The warning and the critical value that the manager begins with. -/
def defaultThreshold : Threshold where
  warning := { enabled := true, greaterThan := true, value := 8000 }
  critical := { enabled := true, greaterThan := true, value := 8500 }

/-- `init`, but for the read of `.thresholdConfig` that it asks for. -/
def create : ThresholdConfigManager κ where
  thresholds := Function.update (fun _ => none) .rpm (some defaultThreshold)

variable (self : ThresholdConfigManager κ)

/-- `getThreshold(for:_:)`: what the handler is called with, at once. -/
def getThreshold (item : EngineDataItem) : Option Threshold := self.thresholds item

/-- `initialize(withData:)`: the manager behind it, and the handler that it calls, if any. -/
def initializeWithData : ThresholdConfigManager κ × Option (κ × Option Threshold) :=
  let self := { self with hasFetchedData := true }
  match self.itemToGetAfterFetch, self.callbackAfterFetch with
  | some item, some handler =>
    ({ self with itemToGetAfterFetch := none, callbackAfterFetch := none },
      some (handler, self.thresholds item))
  | _, _ => (self, none)

end ThresholdConfigManager

/-- A row of the list of thresholds. -/
structure ThresholdConfigTableViewCellViewModel where
  title : String
  warningValue : String := "No warning"
  criticalValue : String := "No critical"
  deriving DecidableEq

namespace ThresholdConfigTableViewCellViewModel

/-- `init(dataItem:)`, where the manager answers with `threshold`. -/
def ofDataItem (dataItem : EngineDataItem) (threshold : Option Threshold) :
    ThresholdConfigTableViewCellViewModel :=
  let self : ThresholdConfigTableViewCellViewModel := { title := dataItem.title }
  match threshold with
  | none => self
  | some threshold =>
    let self :=
      if threshold.warning.enabled then
        let comparison := if threshold.warning.greaterThan then ">" else "<"
        let value := Swift.describeDouble threshold.warning.value
        { self with warningValue := s!"Warn {comparison}{value}" }
      else self
    if threshold.critical.enabled then
      let comparison := if threshold.critical.greaterThan then ">" else "<"
      let value := Swift.describeDouble threshold.critical.value
      { self with criticalValue := s!"Critical {comparison}{value}" }
    else self

end ThresholdConfigTableViewCellViewModel

end Rx7
