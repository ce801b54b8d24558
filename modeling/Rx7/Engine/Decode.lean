import Rx7.Engine.Point
import Rx7.Swift.Data

/-!
# Decoding the packets of the engine

`EngineDataPoint.fromData` is the initializer of a data point from the bytes of a Bluetooth packet.
The first byte is the command; each of the three commands has a frame format, a list of slices
that are read one after the other. The only length check comes before all of them, so a frame that
ends early traps at a slice, and a time of `2 ^ 63` and more traps in its conversion.

* `decodeBasic_eq_ok_iff` and its two siblings: when a frame decodes, and to what
  (`basicPoint`, `advancedPoint`, `sensorPoint`, functions of the storage alone).
* `eq_empty_or_timed`: what decodes has a time, but for the empty point of an ignored packet.
* `fromData_safe_iff`: exactly which byte strings are handled without a trap and as the length
  check intends.
-/

namespace Rx7

namespace EngineDataPoint

open Data

/-- `Int(x)` of an unsigned 64-bit number. -/
def intOfUInt64 (x : UInt64) : Except Trap ℤ :=
  if x.toNat < 2 ^ 63 then .ok x.toNat else .error .integerOverflow

/-! ## The three frame formats -/

/-- A basic packet: the body of `case 218`. -/
def decodeBasic (data : Data) : Except Trap EngineDataPoint := do
  let time ← intOfUInt64 (← data.read UInt64 2 10)
  let boost ← data.read Int16 10 12
  let waterTemp ← data.read UInt8 12 13
  let knock ← data.read UInt8 13 14
  let injectorDuty ← data.read UInt16 14 16
  let leadingIgnition ← data.read Int8 16 17
  let trailingIgnition ← data.read Int8 17 18
  let speed ← data.read UInt16 18 20
  let airTemp ← data.read UInt8 20 21
  let batteryVoltage ← data.read UInt16 21 23
  let rpm ← data.read Int64 23 25
  return {
    time := some time
    boost := some boost.toInt
    waterTemp := some (waterTemp.toNat - 40 : ℤ)
    knock := some knock.toNat
    injectorDuty := some injectorDuty.toNat
    leadingIgnition := some leadingIgnition.toInt
    trailingIgnition := some trailingIgnition.toInt
    speed := some speed.toNat
    airTemp := some (airTemp.toNat - 40 : ℤ)
    batteryVoltage := some (batteryVoltage.toNat / 10 : ℚ)
    rpm := some rpm.toInt }

/-- An advanced packet: the body of `case 240`. -/
def decodeAdvanced (data : Data) : Except Trap EngineDataPoint := do
  let time ← intOfUInt64 (← data.read UInt64 2 10)
  let rpm ← data.read UInt16 10 12
  let intakePressure ← data.read Int16 12 14
  let mapSensorVoltage ← data.read UInt16 14 16
  let tpsVoltage ← data.read UInt16 16 18
  let primaryInjectorPulse ← data.read UInt16 18 20
  let fuelCorrection ← data.read UInt16 20 22
  let leadingIgnition ← data.read Int8 22 23
  let trailingIgnition ← data.read Int8 23 24
  let fuelTemp ← data.read UInt8 24 25
  let mopPosition ← data.read UInt8 25 26
  let boostTP ← data.read UInt8 26 27
  let boostWG ← data.read UInt8 27 28
  let waterTemp ← data.read UInt8 28 29
  let intakeTemp ← data.read UInt8 29 30
  let knock ← data.read UInt8 30 31
  let batteryVoltage ← data.read UInt16 31 33
  let speed ← data.read UInt16 33 35
  let iscvDuty ← data.read UInt16 35 37
  let o2Voltage ← data.read UInt16 37 39
  let secondaryInjectorPulse ← data.read UInt16 39 41
  return {
    time := some time
    rpm := some rpm.toNat
    intakePressure := some intakePressure.toInt
    mapSensorVoltage := some (mapSensorVoltage.toNat / 10 : ℚ)
    tpsVoltage := some (tpsVoltage.toNat / 10 : ℚ)
    primaryInjectorPulse := some primaryInjectorPulse.toNat
    fuelCorrection := some fuelCorrection.toNat
    leadingIgnition := some leadingIgnition.toInt
    trailingIgnition := some trailingIgnition.toInt
    fuelTemp := some (fuelTemp.toNat - 40 : ℤ)
    mopPosition := some mopPosition.toNat
    boostTP := some boostTP.toNat
    boostWG := some boostWG.toNat
    waterTemp := some (waterTemp.toNat - 40 : ℤ)
    intakeTemp := some (intakeTemp.toNat - 40 : ℤ)
    knock := some knock.toNat
    batteryVoltage := some (batteryVoltage.toNat / 10 : ℚ)
    speed := some speed.toNat
    iscvDuty := some iscvDuty.toNat
    o2Voltage := some (o2Voltage.toNat / 10 : ℚ)
    secondaryInjectorPulse := some secondaryInjectorPulse.toNat }

/-- A sensor packet: the body of `case 222`. -/
def decodeSensor (data : Data) : Except Trap EngineDataPoint := do
  let time ← intOfUInt64 (← data.read UInt64 2 10)
  let mapSensorVoltage ← data.read UInt16 10 12
  let tpsFullRangeVoltage ← data.read UInt16 12 14
  let tpsNarrowRangeVoltage ← data.read UInt16 14 16
  let mopPositionSensorVoltage ← data.read UInt16 16 18
  let waterTempSensorVoltage ← data.read UInt16 18 20
  let intakeAirTempSensorVoltage ← data.read UInt16 20 22
  let fuelTempSensorVoltage ← data.read UInt16 22 24
  let o2SensorVoltage ← data.read UInt16 24 26
  let starterSwitch ← data.read UInt8 26 27
  let airConditioningSwitch ← data.read UInt8 27 28
  let powerSteeringPressureSwitch ← data.read UInt8 28 29
  let neutralSwitch ← data.read UInt8 29 30
  let clutchSwitch ← data.read UInt8 30 31
  let stopSwitch ← data.read UInt8 31 32
  let catalyzerThermoSensorSwitch ← data.read UInt8 32 33
  let electricalLoadSwitch ← data.read UInt8 33 34
  let exhaustTempWarningIndicator ← data.read UInt8 34 35
  let fuelPumpOperation ← data.read UInt8 35 36
  let fuelPumpControl ← data.read UInt8 36 37
  let airPumpRelay ← data.read UInt8 37 38
  let portAirControl ← data.read UInt8 38 39
  let chargeControl ← data.read UInt8 39 40
  let turboControl ← data.read UInt8 40 41
  let pressureRegulatorControl ← data.read UInt8 41 42
  return {
    time := some time
    mapSensorVoltage := some (mapSensorVoltage.toNat / 10 : ℚ)
    tpsFullRangeVoltage := some (tpsFullRangeVoltage.toNat / 10 : ℚ)
    tpsNarrowRangeVoltage := some (tpsNarrowRangeVoltage.toNat / 10 : ℚ)
    mopPositionSensorVoltage := some (mopPositionSensorVoltage.toNat / 10 : ℚ)
    waterTempSensorVoltage := some (waterTempSensorVoltage.toNat / 10 : ℚ)
    intakeAirTempSensorVoltage := some (intakeAirTempSensorVoltage.toNat / 10 : ℚ)
    fuelTempSensorVoltage := some (fuelTempSensorVoltage.toNat / 10 : ℚ)
    o2SensorVoltage := some (o2SensorVoltage.toNat / 10 : ℚ)
    starterSwitch := some (starterSwitch.toNat == 1)
    airConditioningSwitch := some (airConditioningSwitch.toNat == 1)
    powerSteeringPressureSwitch := some (powerSteeringPressureSwitch.toNat == 1)
    neutralSwitch := some (neutralSwitch.toNat == 1)
    clutchSwitch := some (clutchSwitch.toNat == 1)
    stopSwitch := some (stopSwitch.toNat == 1)
    catalyzerThermoSensorSwitch := some (catalyzerThermoSensorSwitch.toNat == 1)
    electricalLoadSwitch := some (electricalLoadSwitch.toNat == 1)
    exhaustTempWarningIndicator := some (exhaustTempWarningIndicator.toNat == 1)
    fuelPumpOperation := some (fuelPumpOperation.toNat == 1)
    fuelPumpControl := some (fuelPumpControl.toNat == 1)
    airPumpRelay := some (airPumpRelay.toNat == 1)
    portAirControl := some (portAirControl.toNat == 1)
    chargeControl := some (chargeControl.toNat == 1)
    turboControl := some (turboControl.toNat == 1)
    pressureRegulatorControl := some (pressureRegulatorControl.toNat == 1) }

/-- `init(fromData:)`. -/
def fromData (data : Data) : Except Trap EngineDataPoint := do
  if ¬ data.count > 2 then
    return {}
  let command ← data.read UInt8 0 1
  match command.toNat with
  | 218 => decodeBasic data
  | 240 => decodeAdvanced data
  | 222 => decodeSensor data
  | _ => return {}

/-! ## What the formats read -/

/-- The point that the storage of a basic frame spells. -/
def basicPoint (m : ℕ → UInt8) : EngineDataPoint where
  time := some ((loaded UInt64 m 2).toNat : ℤ)
  boost := some (loaded Int16 m 10).toInt
  waterTemp := some ((loaded UInt8 m 12).toNat - 40 : ℤ)
  knock := some (loaded UInt8 m 13).toNat
  injectorDuty := some (loaded UInt16 m 14).toNat
  leadingIgnition := some (loaded Int8 m 16).toInt
  trailingIgnition := some (loaded Int8 m 17).toInt
  speed := some (loaded UInt16 m 18).toNat
  airTemp := some ((loaded UInt8 m 20).toNat - 40 : ℤ)
  batteryVoltage := some ((loaded UInt16 m 21).toNat / 10 : ℚ)
  rpm := some (loaded Int64 m 23).toInt

/-- The point that the storage of an advanced frame spells. -/
def advancedPoint (m : ℕ → UInt8) : EngineDataPoint where
  time := some ((loaded UInt64 m 2).toNat : ℤ)
  rpm := some (loaded UInt16 m 10).toNat
  intakePressure := some (loaded Int16 m 12).toInt
  mapSensorVoltage := some ((loaded UInt16 m 14).toNat / 10 : ℚ)
  tpsVoltage := some ((loaded UInt16 m 16).toNat / 10 : ℚ)
  primaryInjectorPulse := some (loaded UInt16 m 18).toNat
  fuelCorrection := some (loaded UInt16 m 20).toNat
  leadingIgnition := some (loaded Int8 m 22).toInt
  trailingIgnition := some (loaded Int8 m 23).toInt
  fuelTemp := some ((loaded UInt8 m 24).toNat - 40 : ℤ)
  mopPosition := some (loaded UInt8 m 25).toNat
  boostTP := some (loaded UInt8 m 26).toNat
  boostWG := some (loaded UInt8 m 27).toNat
  waterTemp := some ((loaded UInt8 m 28).toNat - 40 : ℤ)
  intakeTemp := some ((loaded UInt8 m 29).toNat - 40 : ℤ)
  knock := some (loaded UInt8 m 30).toNat
  batteryVoltage := some ((loaded UInt16 m 31).toNat / 10 : ℚ)
  speed := some (loaded UInt16 m 33).toNat
  iscvDuty := some (loaded UInt16 m 35).toNat
  o2Voltage := some ((loaded UInt16 m 37).toNat / 10 : ℚ)
  secondaryInjectorPulse := some (loaded UInt16 m 39).toNat

/-- The point that the storage of a sensor frame spells. -/
def sensorPoint (m : ℕ → UInt8) : EngineDataPoint where
  time := some ((loaded UInt64 m 2).toNat : ℤ)
  mapSensorVoltage := some ((loaded UInt16 m 10).toNat / 10 : ℚ)
  tpsFullRangeVoltage := some ((loaded UInt16 m 12).toNat / 10 : ℚ)
  tpsNarrowRangeVoltage := some ((loaded UInt16 m 14).toNat / 10 : ℚ)
  mopPositionSensorVoltage := some ((loaded UInt16 m 16).toNat / 10 : ℚ)
  waterTempSensorVoltage := some ((loaded UInt16 m 18).toNat / 10 : ℚ)
  intakeAirTempSensorVoltage := some ((loaded UInt16 m 20).toNat / 10 : ℚ)
  fuelTempSensorVoltage := some ((loaded UInt16 m 22).toNat / 10 : ℚ)
  o2SensorVoltage := some ((loaded UInt16 m 24).toNat / 10 : ℚ)
  starterSwitch := some ((loaded UInt8 m 26).toNat == 1)
  airConditioningSwitch := some ((loaded UInt8 m 27).toNat == 1)
  powerSteeringPressureSwitch := some ((loaded UInt8 m 28).toNat == 1)
  neutralSwitch := some ((loaded UInt8 m 29).toNat == 1)
  clutchSwitch := some ((loaded UInt8 m 30).toNat == 1)
  stopSwitch := some ((loaded UInt8 m 31).toNat == 1)
  catalyzerThermoSensorSwitch := some ((loaded UInt8 m 32).toNat == 1)
  electricalLoadSwitch := some ((loaded UInt8 m 33).toNat == 1)
  exhaustTempWarningIndicator := some ((loaded UInt8 m 34).toNat == 1)
  fuelPumpOperation := some ((loaded UInt8 m 35).toNat == 1)
  fuelPumpControl := some ((loaded UInt8 m 36).toNat == 1)
  airPumpRelay := some ((loaded UInt8 m 37).toNat == 1)
  portAirControl := some ((loaded UInt8 m 38).toNat == 1)
  chargeControl := some ((loaded UInt8 m 39).toNat == 1)
  turboControl := some ((loaded UInt8 m 40).toNat == 1)
  pressureRegulatorControl := some ((loaded UInt8 m 41).toNat == 1)

section Formats

variable {data : Data} {point : EngineDataPoint} {β : Type} {b : β}

/-- The time of a frame fits `Int`. -/
def TimeFits (m : ℕ → UInt8) : Prop := (loaded UInt64 m 2).toNat < 2 ^ 63

theorem bind_intOfUInt64_eq_ok_iff {x : UInt64} {f : ℤ → Except Trap β} :
    (intOfUInt64 x >>= f) = .ok b ↔ x.toNat < 2 ^ 63 ∧ f x.toNat = .ok b := by
  unfold intOfUInt64
  split_ifs with h
  · exact (and_iff_right h).symm
  · exact ⟨fun h' => (by cases h'), fun hn => absurd hn.1 h⟩

theorem decodeBasic_eq_ok_iff (h0 : data.startIndex = 0) :
    decodeBasic data = .ok point ↔
      25 ≤ data.endIndex ∧ TimeFits data.storage ∧ point = basicPoint data.storage := by
  simp (disch := omega) only [decodeBasic, bind_read_eq_ok_iff h0, bind_intOfUInt64_eq_ok_iff,
    TimeFits]
  simp only [pure, Except.pure, Except.ok.injEq, basicPoint]
  grind

theorem decodeAdvanced_eq_ok_iff (h0 : data.startIndex = 0) :
    decodeAdvanced data = .ok point ↔
      41 ≤ data.endIndex ∧ TimeFits data.storage ∧ point = advancedPoint data.storage := by
  simp (disch := omega) only [decodeAdvanced, bind_read_eq_ok_iff h0, bind_intOfUInt64_eq_ok_iff,
    TimeFits]
  simp only [pure, Except.pure, Except.ok.injEq, advancedPoint]
  grind

theorem decodeSensor_eq_ok_iff (h0 : data.startIndex = 0) :
    decodeSensor data = .ok point ↔
      42 ≤ data.endIndex ∧ TimeFits data.storage ∧ point = sensorPoint data.storage := by
  simp (disch := omega) only [decodeSensor, bind_read_eq_ok_iff h0, bind_intOfUInt64_eq_ok_iff,
    TimeFits]
  simp only [pure, Except.pure, Except.ok.injEq, sensorPoint]
  grind

end Formats

/-! ## Time and location -/

/-- The point has a time, and no location yet. -/
def Timed (point : EngineDataPoint) : Prop := point.time.isSome = true ∧ point.location = none

section Timed

variable {data : Data}

theorem timed_of_decodeBasic : ∀ point, decodeBasic data = .ok point → Timed point := by
  unfold decodeBasic
  repeat refine Trap.forall_ok_bind fun _ => ?_
  rintro _ ⟨⟩
  exact ⟨rfl, rfl⟩

theorem timed_of_decodeAdvanced : ∀ point, decodeAdvanced data = .ok point → Timed point := by
  unfold decodeAdvanced
  repeat refine Trap.forall_ok_bind fun _ => ?_
  rintro _ ⟨⟩
  exact ⟨rfl, rfl⟩

theorem timed_of_decodeSensor : ∀ point, decodeSensor data = .ok point → Timed point := by
  unfold decodeSensor
  repeat refine Trap.forall_ok_bind fun _ => ?_
  rintro _ ⟨⟩
  exact ⟨rfl, rfl⟩

/-- What a packet decodes to: the empty point of an ignored one, or what one of the formats
gives. -/
theorem fromData_cases {point : EngineDataPoint} (h : fromData data = .ok point) :
    point = {} ∨ decodeBasic data = .ok point ∨ decodeAdvanced data = .ok point ∨
      decodeSensor data = .ok point := by
  by_cases hc : data.count > 2
  · have hcommand : ∀ p, fromData data = .ok p → p = {} ∨ decodeBasic data = .ok p ∨
        decodeAdvanced data = .ok p ∨ decodeSensor data = .ok p := by
      simp only [fromData, hc, not_true_eq_false, if_false]
      refine Trap.forall_ok_bind fun command p hp => ?_
      split at hp
      · exact .inr (.inl hp)
      · exact .inr (.inr (.inl hp))
      · exact .inr (.inr (.inr hp))
      · exact .inl (Except.ok.inj hp).symm
    exact hcommand point h
  · simp only [fromData, hc, not_false_eq_true, if_true] at h
    exact .inl (Except.ok.inj h).symm

/-- Whatever a packet decodes to is the empty point of an ignored one, or has a time. -/
theorem eq_empty_or_timed {point : EngineDataPoint} (h : fromData data = .ok point) :
    point = {} ∨ Timed point := by
  obtain h | h | h | h := fromData_cases h
  · exact .inl h
  · exact .inr (timed_of_decodeBasic point h)
  · exact .inr (timed_of_decodeAdvanced point h)
  · exact .inr (timed_of_decodeSensor point h)

end Timed

/-- The length of the frames of a command and the point they spell. -/
def format : ℕ → Option (ℕ × ((ℕ → UInt8) → EngineDataPoint))
  | 218 => some (25, basicPoint)
  | 240 => some (41, advancedPoint)
  | 222 => some (42, sensorPoint)
  | _ => none

/-- The command of a byte string, its first byte. -/
def commandOf (bytes : List UInt8) : ℕ := (bytes.headD 0).toNat

/-- The time of a byte string, its bytes 2 to 9. -/
def timeOf (bytes : List UInt8) : ℕ := LittleEndian.ofBytes ((bytes.drop 2).take 8)

/-- A byte string that ends before the fields of its command do. -/
def TooShort (bytes : List UInt8) : Prop :=
  ∃ n point, format (commandOf bytes) = some (n, point) ∧ bytes.length < n

section FromData

variable {bytes : List UInt8} {beyond : ℕ → UInt8} {point : EngineDataPoint}

theorem fromData_of_length_le (h : bytes.length ≤ 2) :
    fromData (.ofBytes bytes beyond) = .ok {} := by
  simp only [fromData, count_ofBytes, gt_iff_lt, not_lt.2 h, not_false_eq_true, if_true]
  rfl

/-- Past the length check, the decoder dispatches on the first byte. -/
theorem fromData_of_lt (h : 2 < bytes.length) :
    fromData (.ofBytes bytes beyond) =
      match commandOf bytes with
      | 218 => decodeBasic (.ofBytes bytes beyond)
      | 240 => decodeAdvanced (.ofBytes bytes beyond)
      | 222 => decodeSensor (.ofBytes bytes beyond)
      | _ => .ok {} := by
  have hc : ((Data.ofBytes bytes beyond).storage 0).toNat = commandOf bytes := by
    rw [storage_ofBytes (by omega), commandOf, List.headD_eq_head?_getD, List.head?_eq_getElem?,
      List.getElem?_eq_getElem (by omega), Option.getD_some]
  have hr : (Data.ofBytes bytes beyond).read UInt8 0 1 = .ok _ :=
    read_eq_ok ⟨by simp, by omega, by simp; omega⟩
  simp only [fromData, count_ofBytes, gt_iff_lt, h, not_true_eq_false, if_false, hr]
  change (match (loaded UInt8 _ 0).toNat with
    | 218 => _ | 240 => _ | 222 => _ | _ => _) = _
  rw [loaded_uint8, hc]
  rfl

/-- **What the decoder does.** Past the length check, a string of an unknown command gives the
empty point; one of a known command decodes exactly when it has the bytes of its format and its
time fits `Int`, and then to the point its storage spells. -/
theorem fromData_eq_ok_iff (h : 2 < bytes.length) :
    fromData (.ofBytes bytes beyond) = .ok point ↔
      match format (commandOf bytes) with
      | some (n, spelled) => n ≤ bytes.length ∧ TimeFits (Data.ofBytes bytes beyond).storage ∧
          point = spelled (Data.ofBytes bytes beyond).storage
      | none => point = {} := by
  rw [fromData_of_lt h]
  unfold format
  split
  · exact decodeBasic_eq_ok_iff rfl
  · exact decodeAdvanced_eq_ok_iff rfl
  · exact decodeSensor_eq_ok_iff rfl
  · rw [Except.ok.injEq, eq_comm]

theorem timeFits_ofBytes (h : 10 ≤ bytes.length) :
    TimeFits (Data.ofBytes bytes beyond).storage ↔ timeOf bytes < 2 ^ 63 := by
  rw [TimeFits, toNat_loaded_uint64, window_ofBytes (by omega), timeOf]

theorem ten_le_of_format {n : ℕ} {spelled : (ℕ → UInt8) → EngineDataPoint} {c : ℕ}
    (h : format c = some (n, spelled)) : 10 ≤ n := by
  unfold format at h
  split at h <;> cases h <;> omega

/-- **Which byte strings are handled safely.** The decoder finishes without a trap, rejecting a
string that is too short for its command, exactly on the strings of at most two bytes, those of an
unknown command, and those that have all the bytes of their format and a time below `2 ^ 63`. -/
theorem fromData_safe_iff (bytes : List UInt8) (beyond : ℕ → UInt8) :
    ((∃ point, fromData (.ofBytes bytes beyond) = .ok point) ∧
        (TooShort bytes → fromData (.ofBytes bytes beyond) = .ok {})) ↔
      bytes.length ≤ 2 ∨ format (commandOf bytes) = none ∨
        (¬ TooShort bytes ∧ timeOf bytes < 2 ^ 63) := by
  by_cases hlen : bytes.length ≤ 2
  · have h : fromData (.ofBytes bytes beyond) = .ok {} := fromData_of_length_le hlen
    exact iff_of_true ⟨⟨{}, h⟩, fun _ => h⟩ (Or.inl hlen)
  rw [not_le] at hlen
  simp only [fromData_eq_ok_iff hlen, not_le.2 hlen, false_or]
  rcases hf : format (commandOf bytes) with _ | ⟨n, spelled⟩
  · simp
  have hshort : TooShort bytes ↔ bytes.length < n := by simp [TooShort, hf]
  have h10 := ten_le_of_format hf
  simp only [hshort, not_lt]
  refine ⟨?_, ?_⟩
  · rintro ⟨⟨_, hn, ht, rfl⟩, -⟩
    exact Or.inr ⟨hn, (timeFits_ofBytes (by omega)).1 ht⟩
  · rintro (h | ⟨hn, ht⟩)
    · cases h
    · exact ⟨⟨_, hn, (timeFits_ofBytes (by omega)).2 ht, rfl⟩, fun h => absurd h (by omega)⟩

/-- Three bytes are enough to pass the length check and not enough for any format. -/
theorem fromData_traps_on_three_bytes :
    ¬ ∀ (bytes : List UInt8) (beyond : ℕ → UInt8),
      (∃ point, fromData (.ofBytes bytes beyond) = .ok point) ∧
        (TooShort bytes → fromData (.ofBytes bytes beyond) = .ok {}) := by
  intro h
  obtain ⟨⟨point, hp⟩, -⟩ := h [218, 0, 0] fun _ => 0
  have htrap : fromData (.ofBytes [218, 0, 0] fun _ => 0) = .error .sliceOutOfRange := by rfl
  rw [htrap] at hp
  cases hp

end FromData

end EngineDataPoint

end Rx7
