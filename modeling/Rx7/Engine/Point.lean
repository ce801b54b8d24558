import Rx7.Engine.Item
import Mathlib.Data.Rat.Defs

/-!
# Engine data points

An `EngineDataPoint` carries the values of one packet, or the merged values of several: every
field is optional. `field` reads the field that an `EngineDataItem` names, of whatever type it
is; `supercede` merges a newer point over an older one, field by field. Voltages are `Double`s in
tenths of a volt. What the gauges read of a point (`subscript`) is its field of the gauge's name,
but for one key that is crossed (`subscript_fuelPumpControl`).

`field_supercede` says of all engine fields at once what the hand-written merge does.
-/

namespace Rx7

/-- The numbers of type `Double`. The one next to a tenth of a volt or a thousandth of a second is
denoted by that fraction. -/
abbrev Double := ℚ

structure CLLocationCoordinate2D where
  latitude : Double
  longitude : Double
  deriving DecidableEq

@[ext] structure EngineDataPoint where
  time : Option ℤ := none
  boost : Option ℤ := none
  waterTemp : Option ℤ := none
  knock : Option ℤ := none
  injectorDuty : Option ℤ := none
  leadingIgnition : Option ℤ := none
  trailingIgnition : Option ℤ := none
  speed : Option ℤ := none
  airTemp : Option ℤ := none
  batteryVoltage : Option Double := none
  rpm : Option ℤ := none
  location : Option CLLocationCoordinate2D := none
  intakePressure : Option ℤ := none
  mapSensorVoltage : Option Double := none
  tpsVoltage : Option Double := none
  primaryInjectorPulse : Option ℤ := none
  fuelCorrection : Option ℤ := none
  fuelTemp : Option ℤ := none
  mopPosition : Option ℤ := none
  boostTP : Option ℤ := none
  boostWG : Option ℤ := none
  intakeTemp : Option ℤ := none
  iscvDuty : Option ℤ := none
  o2Voltage : Option Double := none
  secondaryInjectorPulse : Option ℤ := none
  tpsFullRangeVoltage : Option Double := none
  tpsNarrowRangeVoltage : Option Double := none
  mopPositionSensorVoltage : Option Double := none
  waterTempSensorVoltage : Option Double := none
  intakeAirTempSensorVoltage : Option Double := none
  fuelTempSensorVoltage : Option Double := none
  o2SensorVoltage : Option Double := none
  starterSwitch : Option Bool := none
  airConditioningSwitch : Option Bool := none
  powerSteeringPressureSwitch : Option Bool := none
  neutralSwitch : Option Bool := none
  clutchSwitch : Option Bool := none
  stopSwitch : Option Bool := none
  catalyzerThermoSensorSwitch : Option Bool := none
  electricalLoadSwitch : Option Bool := none
  exhaustTempWarningIndicator : Option Bool := none
  fuelPumpOperation : Option Bool := none
  fuelPumpControl : Option Bool := none
  airPumpRelay : Option Bool := none
  portAirControl : Option Bool := none
  chargeControl : Option Bool := none
  turboControl : Option Bool := none
  pressureRegulatorControl : Option Bool := none

namespace EngineDataPoint

/-- The value of an engine field, of the type of its field. -/
inductive Value
  | int (value : ℤ)
  | double (value : Double)
  | bool (value : Bool)
  deriving DecidableEq

/-- The field that an item names. -/
def field (point : EngineDataPoint) : EngineDataItem → Option Value
  | .rpm => point.rpm.map .int
  | .boost => point.boost.map .int
  | .waterTemp => point.waterTemp.map .int
  | .knock => point.knock.map .int
  | .injectorDuty => point.injectorDuty.map .int
  | .leadingIgnition => point.leadingIgnition.map .int
  | .trailingIgnition => point.trailingIgnition.map .int
  | .speed => point.speed.map .int
  | .airTemp => point.airTemp.map .int
  | .batteryVoltage => point.batteryVoltage.map .double
  | .intakePressure => point.intakePressure.map .int
  | .mapSensorVoltage => point.mapSensorVoltage.map .double
  | .tpsVoltage => point.tpsVoltage.map .double
  | .primaryInjectorPulse => point.primaryInjectorPulse.map .int
  | .fuelCorrection => point.fuelCorrection.map .int
  | .fuelTemp => point.fuelTemp.map .int
  | .mopPosition => point.mopPosition.map .int
  | .boostTP => point.boostTP.map .int
  | .boostWG => point.boostWG.map .int
  | .intakeTemp => point.intakeTemp.map .int
  | .iscvDuty => point.iscvDuty.map .int
  | .o2Voltage => point.o2Voltage.map .double
  | .secondaryInjectorPulse => point.secondaryInjectorPulse.map .int
  | .tpsFullRangeVoltage => point.tpsFullRangeVoltage.map .double
  | .tpsNarrowRangeVoltage => point.tpsNarrowRangeVoltage.map .double
  | .mopPositionSensorVoltage => point.mopPositionSensorVoltage.map .double
  | .waterTempSensorVoltage => point.waterTempSensorVoltage.map .double
  | .intakeAirTempSensorVoltage => point.intakeAirTempSensorVoltage.map .double
  | .fuelTempSensorVoltage => point.fuelTempSensorVoltage.map .double
  | .o2SensorVoltage => point.o2SensorVoltage.map .double
  | .starterSwitch => point.starterSwitch.map .bool
  | .airConditioningSwitch => point.airConditioningSwitch.map .bool
  | .powerSteeringPressureSwitch => point.powerSteeringPressureSwitch.map .bool
  | .neutralSwitch => point.neutralSwitch.map .bool
  | .clutchSwitch => point.clutchSwitch.map .bool
  | .stopSwitch => point.stopSwitch.map .bool
  | .catalyzerThermoSensorSwitch => point.catalyzerThermoSensorSwitch.map .bool
  | .electricalLoadSwitch => point.electricalLoadSwitch.map .bool
  | .exhaustTempWarningIndicator => point.exhaustTempWarningIndicator.map .bool
  | .fuelPumpOperation => point.fuelPumpOperation.map .bool
  | .fuelPumpControl => point.fuelPumpControl.map .bool
  | .airPumpRelay => point.airPumpRelay.map .bool
  | .portAirControl => point.portAirControl.map .bool
  | .chargeControl => point.chargeControl.map .bool
  | .turboControl => point.turboControl.map .bool
  | .pressureRegulatorControl => point.pressureRegulatorControl.map .bool

/-- `addLocation`. -/
def addLocation (self : EngineDataPoint) (location : CLLocationCoordinate2D) : EngineDataPoint :=
  { self with location := some location }

/-- `supercede(with:)`: the newer point's values over the older ones. The location is in no line of
the merge. -/
def supercede (self data : EngineDataPoint) : EngineDataPoint where
  time := data.time
  boost := data.boost.or self.boost
  waterTemp := data.waterTemp.or self.waterTemp
  knock := data.knock.or self.knock
  injectorDuty := data.injectorDuty.or self.injectorDuty
  leadingIgnition := data.leadingIgnition.or self.leadingIgnition
  trailingIgnition := data.trailingIgnition.or self.trailingIgnition
  speed := data.speed.or self.speed
  airTemp := data.airTemp.or self.airTemp
  batteryVoltage := data.batteryVoltage.or self.batteryVoltage
  rpm := data.rpm.or self.rpm
  intakePressure := data.intakePressure.or self.intakePressure
  mapSensorVoltage := data.mapSensorVoltage.or self.mapSensorVoltage
  tpsVoltage := data.tpsVoltage.or self.tpsVoltage
  primaryInjectorPulse := data.primaryInjectorPulse.or self.primaryInjectorPulse
  fuelCorrection := data.fuelCorrection.or self.fuelCorrection
  fuelTemp := data.fuelTemp.or self.fuelTemp
  mopPosition := data.mopPosition.or self.mopPosition
  boostTP := data.boostTP.or self.boostTP
  boostWG := data.boostWG.or self.boostWG
  intakeTemp := data.intakeTemp.or self.intakeTemp
  iscvDuty := data.iscvDuty.or self.iscvDuty
  o2Voltage := data.o2Voltage.or self.o2Voltage
  secondaryInjectorPulse := data.secondaryInjectorPulse.or self.secondaryInjectorPulse
  tpsFullRangeVoltage := data.tpsFullRangeVoltage.or self.tpsFullRangeVoltage
  tpsNarrowRangeVoltage := data.tpsNarrowRangeVoltage.or self.tpsNarrowRangeVoltage
  mopPositionSensorVoltage := data.mopPositionSensorVoltage.or self.mopPositionSensorVoltage
  waterTempSensorVoltage := data.waterTempSensorVoltage.or self.waterTempSensorVoltage
  intakeAirTempSensorVoltage := data.intakeAirTempSensorVoltage.or self.intakeAirTempSensorVoltage
  fuelTempSensorVoltage := data.fuelTempSensorVoltage.or self.fuelTempSensorVoltage
  o2SensorVoltage := data.o2SensorVoltage.or self.o2SensorVoltage
  starterSwitch := data.starterSwitch.or self.starterSwitch
  airConditioningSwitch := data.airConditioningSwitch.or self.airConditioningSwitch
  powerSteeringPressureSwitch :=
    data.powerSteeringPressureSwitch.or self.powerSteeringPressureSwitch
  neutralSwitch := data.neutralSwitch.or self.neutralSwitch
  clutchSwitch := data.clutchSwitch.or self.clutchSwitch
  stopSwitch := data.stopSwitch.or self.stopSwitch
  catalyzerThermoSensorSwitch :=
    data.catalyzerThermoSensorSwitch.or self.catalyzerThermoSensorSwitch
  electricalLoadSwitch := data.electricalLoadSwitch.or self.electricalLoadSwitch
  exhaustTempWarningIndicator :=
    data.exhaustTempWarningIndicator.or self.exhaustTempWarningIndicator
  fuelPumpOperation := data.fuelPumpOperation.or self.fuelPumpOperation
  fuelPumpControl := data.fuelPumpControl.or self.fuelPumpControl
  airPumpRelay := data.airPumpRelay.or self.airPumpRelay
  portAirControl := data.portAirControl.or self.portAirControl
  chargeControl := data.chargeControl.or self.chargeControl
  turboControl := data.turboControl.or self.turboControl
  pressureRegulatorControl := data.pressureRegulatorControl.or self.pressureRegulatorControl

/-- `subscript(key:)`: what the gauges read. -/
def subscript (self : EngineDataPoint) : EngineDataItem → Option Value
  | .rpm => self.rpm.map .int
  | .boost => self.boost.map .int
  | .waterTemp => self.waterTemp.map .int
  | .knock => self.knock.map .int
  | .injectorDuty => self.injectorDuty.map .int
  | .leadingIgnition => self.leadingIgnition.map .int
  | .trailingIgnition => self.trailingIgnition.map .int
  | .speed => self.speed.map .int
  | .airTemp => self.airTemp.map .int
  | .batteryVoltage => self.batteryVoltage.map .double
  | .intakePressure => self.intakePressure.map .int
  | .mapSensorVoltage => self.mapSensorVoltage.map .double
  | .tpsVoltage => self.tpsVoltage.map .double
  | .primaryInjectorPulse => self.primaryInjectorPulse.map .int
  | .fuelCorrection => self.fuelCorrection.map .int
  | .fuelTemp => self.fuelTemp.map .int
  | .mopPosition => self.mopPosition.map .int
  | .boostTP => self.boostTP.map .int
  | .boostWG => self.boostWG.map .int
  | .intakeTemp => self.intakeTemp.map .int
  | .iscvDuty => self.iscvDuty.map .int
  | .o2Voltage => self.o2Voltage.map .double
  | .secondaryInjectorPulse => self.secondaryInjectorPulse.map .int
  | .tpsFullRangeVoltage => self.tpsFullRangeVoltage.map .double
  | .tpsNarrowRangeVoltage => self.tpsNarrowRangeVoltage.map .double
  | .mopPositionSensorVoltage => self.mopPositionSensorVoltage.map .double
  | .waterTempSensorVoltage => self.waterTempSensorVoltage.map .double
  | .intakeAirTempSensorVoltage => self.intakeAirTempSensorVoltage.map .double
  | .fuelTempSensorVoltage => self.fuelTempSensorVoltage.map .double
  | .o2SensorVoltage => self.o2SensorVoltage.map .double
  | .starterSwitch => self.starterSwitch.map .bool
  | .airConditioningSwitch => self.airConditioningSwitch.map .bool
  | .powerSteeringPressureSwitch => self.powerSteeringPressureSwitch.map .bool
  | .neutralSwitch => self.neutralSwitch.map .bool
  | .clutchSwitch => self.clutchSwitch.map .bool
  | .stopSwitch => self.stopSwitch.map .bool
  | .catalyzerThermoSensorSwitch => self.catalyzerThermoSensorSwitch.map .bool
  | .electricalLoadSwitch => self.electricalLoadSwitch.map .bool
  | .exhaustTempWarningIndicator => self.exhaustTempWarningIndicator.map .bool
  | .fuelPumpOperation => self.fuelPumpOperation.map .bool
  | .fuelPumpControl => self.fuelCorrection.map .int
  | .airPumpRelay => self.airPumpRelay.map .bool
  | .portAirControl => self.portAirControl.map .bool
  | .chargeControl => self.chargeControl.map .bool
  | .turboControl => self.turboControl.map .bool
  | .pressureRegulatorControl => self.pressureRegulatorControl.map .bool

/-- The subscript reads the field that its key names, for every key but one. -/
theorem subscript_of_ne {key : EngineDataItem} (h : key ≠ .fuelPumpControl)
    (point : EngineDataPoint) : point.subscript key = point.field key := by
  cases key
  case fuelPumpControl => exact (h rfl).elim
  all_goals rfl

theorem subscript_fuelPumpControl (point : EngineDataPoint) :
    point.subscript .fuelPumpControl = point.field .fuelCorrection := rfl

/-- The time of a stored data point, in seconds; 0 where the point has none. -/
def timestamp (self : EngineDataPoint) : Double :=
  match self.time with
  | some time => time / 1000
  | none => 0

/-- `convertToFirestoreData`: the entries of the document. -/
def convertToFirestoreData (self : EngineDataPoint) : List (String × Option Value) :=
  [("timestamp", some (.double self.timestamp)),
    ("boost", self.boost.map .int),
    ("waterTemp", self.waterTemp.map .int),
    ("knock", self.knock.map .int),
    ("injectorDuty", self.injectorDuty.map .int),
    ("leadingIgnition", self.leadingIgnition.map .int),
    ("trailingIgnition", self.trailingIgnition.map .int),
    ("speed", self.speed.map .int),
    ("airTemp", self.airTemp.map .int),
    ("batteryVoltage", self.batteryVoltage.map .double),
    ("rpm", self.rpm.map .int)]

/-- **The merge, field by field**: the newer value where the newer point has one. -/
theorem field_supercede (key : EngineDataItem) (old new : EngineDataPoint) :
    (old.supercede new).field key = (new.field key).or (old.field key) := by
  cases key <;> exact Option.map_or

end EngineDataPoint

end Rx7
