import Mathlib.Data.Nat.Notation

/-!
# The engine data items

`EngineDataItem` names the quantities a gauge can show, one for each engine field of a data point.
Its raw values number the cases from `0` in the order of their declaration; `ofRawValue` is the
failable initializer, which accepts exactly these.
-/

namespace Rx7

/-- The types of data points available on the gauges page. -/
inductive EngineDataItem
  | rpm
  | boost
  | waterTemp
  | knock
  | injectorDuty
  | leadingIgnition
  | trailingIgnition
  | speed
  | airTemp
  | batteryVoltage
  | intakePressure
  | mapSensorVoltage
  | tpsVoltage
  | primaryInjectorPulse
  | fuelCorrection
  | fuelTemp
  | mopPosition
  | boostTP
  | boostWG
  | intakeTemp
  | iscvDuty
  | o2Voltage
  | secondaryInjectorPulse
  | tpsFullRangeVoltage
  | tpsNarrowRangeVoltage
  | mopPositionSensorVoltage
  | waterTempSensorVoltage
  | intakeAirTempSensorVoltage
  | fuelTempSensorVoltage
  | o2SensorVoltage
  | starterSwitch
  | airConditioningSwitch
  | powerSteeringPressureSwitch
  | neutralSwitch
  | clutchSwitch
  | stopSwitch
  | catalyzerThermoSensorSwitch
  | electricalLoadSwitch
  | exhaustTempWarningIndicator
  | fuelPumpOperation
  | fuelPumpControl
  | airPumpRelay
  | portAirControl
  | chargeControl
  | turboControl
  | pressureRegulatorControl
  deriving DecidableEq, Repr

namespace EngineDataItem

/-- The cases in the order of their declaration. -/
def allCases : List EngineDataItem :=
  [.rpm, .boost, .waterTemp, .knock, .injectorDuty, .leadingIgnition, .trailingIgnition, .speed,
    .airTemp, .batteryVoltage, .intakePressure, .mapSensorVoltage, .tpsVoltage,
    .primaryInjectorPulse, .fuelCorrection, .fuelTemp, .mopPosition, .boostTP, .boostWG,
    .intakeTemp, .iscvDuty, .o2Voltage, .secondaryInjectorPulse, .tpsFullRangeVoltage,
    .tpsNarrowRangeVoltage, .mopPositionSensorVoltage, .waterTempSensorVoltage,
    .intakeAirTempSensorVoltage, .fuelTempSensorVoltage, .o2SensorVoltage, .starterSwitch,
    .airConditioningSwitch, .powerSteeringPressureSwitch, .neutralSwitch, .clutchSwitch,
    .stopSwitch, .catalyzerThermoSensorSwitch, .electricalLoadSwitch, .exhaustTempWarningIndicator,
    .fuelPumpOperation, .fuelPumpControl, .airPumpRelay, .portAirControl, .chargeControl,
    .turboControl, .pressureRegulatorControl]

/-- The raw value of a case is its place in the declaration. -/
def rawValue (item : EngineDataItem) : ℕ := item.ctorIdx

/-- `EngineDataItem(rawValue:)`. -/
def ofRawValue (value : ℕ) : Option EngineDataItem := allCases[value]?

@[simp] theorem ofRawValue_rawValue (item : EngineDataItem) :
    ofRawValue item.rawValue = some item := by
  cases item <;> rfl

theorem rawValue_lt (item : EngineDataItem) : item.rawValue < 46 := by
  cases item <;> decide

/-- The name under which an item is shown. -/
def title : EngineDataItem → String
  | .rpm => "RPM"
  | .boost => "Boost"
  | .waterTemp => "Water Temp"
  | .knock => "Knock"
  | .injectorDuty => "Injector Duty"
  | .leadingIgnition => "Leading Ignition"
  | .trailingIgnition => "Trailing Ignition"
  | .speed => "Speed (MPH)"
  | .airTemp => "Air Temp"
  | .batteryVoltage => "Battery Voltage"
  | .intakePressure => "Intake Pressure"
  | .mapSensorVoltage => "Map Sensor Voltage"
  | .tpsVoltage => "TPS Voltage"
  | .primaryInjectorPulse => "Primary Injector Pulse"
  | .fuelCorrection => "Fuel Correction"
  | .fuelTemp => "Fuel Temp"
  | .mopPosition => "MOP Position"
  | .boostTP => "Boost TP"
  | .boostWG => "Boost WG"
  | .intakeTemp => "Intake Temp"
  | .iscvDuty => "ISCV Duty"
  | .o2Voltage => "O2 Voltage"
  | .secondaryInjectorPulse => "Secondary Injector Pulse"
  | .tpsFullRangeVoltage => "TPS Full Range Voltage"
  | .tpsNarrowRangeVoltage => "TPS Narrow Range Voltage"
  | .mopPositionSensorVoltage => "MOP Position Sensor Voltage"
  | .waterTempSensorVoltage => "Water Temp Sensor Voltage"
  | .intakeAirTempSensorVoltage => "Intake Air Temp Sensor Voltage"
  | .fuelTempSensorVoltage => "Fuel Temp Sensor Voltage"
  | .o2SensorVoltage => "O2 Sensor Voltage"
  | .starterSwitch => "Starter Switch"
  | .airConditioningSwitch => "Air Conditioning Switch"
  | .powerSteeringPressureSwitch => "Power Steering Pressure Switch"
  | .neutralSwitch => "Neutral Switch"
  | .clutchSwitch => "Clutch Switch"
  | .stopSwitch => "Stop Switch"
  | .catalyzerThermoSensorSwitch => "Catalyzer Thermo Sensor Switch"
  | .electricalLoadSwitch => "Electrical Load Switch"
  | .exhaustTempWarningIndicator => "Exhaust Temp Warning Indicator"
  | .fuelPumpOperation => "Fuel Pump Operation"
  | .fuelPumpControl => "Fuel Pump Control"
  | .airPumpRelay => "Air Pump Relay"
  | .portAirControl => "Port Air Control"
  | .chargeControl => "Charge Control"
  | .turboControl => "Turbo Control"
  | .pressureRegulatorControl => "Pressure Regulator Control"

/-- Whether the gauge of an item has a chart. -/
def shouldDisplayChart : EngineDataItem → Bool
  | .rpm | .boost | .waterTemp | .knock | .injectorDuty | .leadingIgnition | .trailingIgnition
  | .speed | .airTemp | .batteryVoltage | .intakePressure | .mapSensorVoltage | .tpsVoltage
  | .primaryInjectorPulse | .fuelCorrection | .fuelTemp | .mopPosition | .boostTP | .boostWG
  | .intakeTemp | .iscvDuty | .o2Voltage | .secondaryInjectorPulse | .tpsFullRangeVoltage
  | .tpsNarrowRangeVoltage | .mopPositionSensorVoltage | .waterTempSensorVoltage
  | .intakeAirTempSensorVoltage | .fuelTempSensorVoltage | .o2SensorVoltage => true
  | .starterSwitch | .airConditioningSwitch | .powerSteeringPressureSwitch | .neutralSwitch
  | .clutchSwitch | .stopSwitch | .catalyzerThermoSensorSwitch | .electricalLoadSwitch
  | .exhaustTempWarningIndicator | .fuelPumpOperation | .fuelPumpControl | .airPumpRelay
  | .portAirControl | .chargeControl | .turboControl | .pressureRegulatorControl => false

end EngineDataItem

end Rx7
