import Mathlib.Data.List.Basic

/-!
# The characteristics and their UUIDs

`Characteristics` are the six Bluetooth characteristics the app knows, with the spelling of their
UUIDs that the source gives (`rawValue`). CoreBluetooth reads the hexadecimal digits of a spelling
in either case (`CBUUID.ofString`) and prints a UUID in upper case (`CBUUID.uuidString`). Going
back from a printed UUID to a characteristic compares spellings (`getCharacteristicByUUID`), and
the source's spellings are in lower case: no printed UUID is one of them
(`getCharacteristicByUUID_uuidString`).
-/

namespace Rx7.Bluetooth

/-- A Bluetooth UUID, as its hexadecimal digits. -/
structure CBUUID where
  digits : List (Fin 16)
  deriving DecidableEq

namespace CBUUID

/-- The value of a hexadecimal digit, in either case. -/
def hexDigit (c : Char) : Option (Fin 16) :=
  if '0' ≤ c ∧ c ≤ '9' then some (Fin.ofNat 16 (c.toNat - '0'.toNat))
  else if 'a' ≤ c ∧ c ≤ 'f' then some (Fin.ofNat 16 (c.toNat - 'a'.toNat + 10))
  else if 'A' ≤ c ∧ c ≤ 'F' then some (Fin.ofNat 16 (c.toNat - 'A'.toNat + 10))
  else none

/-- `CBUUID(string:)`: the hyphens between the digits are skipped. -/
def ofString (string : String) : CBUUID := ⟨string.toList.filterMap hexDigit⟩

def upperDigit (d : Fin 16) : Char :=
  if d.val < 10 then Char.ofNat ('0'.toNat + d.val) else Char.ofNat ('A'.toNat + (d.val - 10))

/-- Groups of 8, 4, 4, 4 and the remaining digits, hyphenated. -/
def hyphenate (l : List Char) : List Char :=
  l.take 8 ++ '-' :: ((l.drop 8).take 4 ++ '-' :: ((l.drop 12).take 4 ++
    '-' :: ((l.drop 16).take 4 ++ '-' :: l.drop 20)))

/-- `uuidString`, which is also how a 128-bit UUID prints. -/
def uuidString (uuid : CBUUID) : String :=
  String.ofList (hyphenate (uuid.digits.map upperDigit))

theorem hexDigit_upperDigit (d : Fin 16) : hexDigit (upperDigit d) = some d := by
  revert d
  decide

theorem groups_append (l : List Char) :
    l.take 8 ++ ((l.drop 8).take 4 ++ ((l.drop 12).take 4 ++ ((l.drop 16).take 4 ++ l.drop 20))) =
      l := by
  have h : ∀ n k, l.drop n = (l.drop n).take k ++ l.drop (n + k) := fun n k => by
    rw [← List.drop_drop, List.take_append_drop]
  rw [← h 16 4, ← h 12 4, ← h 8 4, List.take_append_drop]

/-- The printed form reads back as the UUID. -/
theorem ofString_uuidString (uuid : CBUUID) : ofString uuid.uuidString = uuid := by
  have hhyphen : hexDigit '-' = none := by decide
  have hskip : ∀ l : List Char, (hyphenate l).filterMap hexDigit = l.filterMap hexDigit := by
    intro l
    rw [← congrArg (List.filterMap hexDigit) (groups_append l)]
    simp [hyphenate, List.filterMap_append, hhyphen]
  have hdigits : (uuid.digits.map upperDigit).filterMap hexDigit = uuid.digits := by
    rw [List.filterMap_map]
    exact (List.filterMap_congr fun d _ => hexDigit_upperDigit d).trans List.filterMap_some
  rw [ofString, uuidString, String.toList_ofList, hskip, hdigits]

theorem mem_hyphenate {l : List Char} {c : Char} (h : c ∈ hyphenate l) : c = '-' ∨ c ∈ l := by
  rw [← groups_append l]
  simp only [hyphenate, List.mem_append, List.mem_cons] at h ⊢
  tauto

/-- A printed UUID has no letter in lower case. -/
theorem isLower_of_mem_uuidString {uuid : CBUUID} {c : Char} (h : c ∈ uuid.uuidString.toList) :
    c.isLower = false := by
  have hupper : ∀ d, (upperDigit d).isLower = false := by decide
  rw [uuidString, String.toList_ofList] at h
  rcases mem_hyphenate h with rfl | h
  · rfl
  · obtain ⟨d, -, rfl⟩ := List.mem_map.1 h
    exact hupper d

end CBUUID

/-- `BluetoothConfig.Characteristics`. -/
inductive Characteristics
  | deviceLoad
  | engineData
  | gpsReceiver
  | thresholdConfig
  | layoutConfig
  | shutdown
  deriving DecidableEq, Repr

namespace Characteristics

def allCases : List Characteristics :=
  [.deviceLoad, .engineData, .gpsReceiver, .thresholdConfig, .layoutConfig, .shutdown]

def rawValue : Characteristics → String
  | deviceLoad => "ff51b30e-d7e2-4d93-8842-a7c4a57dfb10"
  | engineData => "f3f94f62-234e-11e8-b467-0ed5f89f718b"
  | gpsReceiver => "ab913146-2988-11e8-b467-0ed5f89f718b"
  | thresholdConfig => "e87a9de0-2fda-47ec-bc60-87ff31c9777f"
  | layoutConfig => "94667c9c-6888-41a6-9401-3655ebbfaf63"
  | shutdown => "382cccf9-9fdc-4ae0-8fc1-4570eabc3107"

/-- `Characteristics(rawValue:)`. -/
def ofRawValue (rawValue : String) : Option Characteristics :=
  allCases.find? fun c => c.rawValue == rawValue

def asCBUUID (c : Characteristics) : CBUUID := CBUUID.ofString c.rawValue

theorem asCBUUID_injective : Function.Injective asCBUUID := by
  have hhead : ∀ c : Characteristics, c.asCBUUID.digits.take 2 = match c with
      | .deviceLoad => [15, 15]
      | .engineData => [15, 3]
      | .gpsReceiver => [10, 11]
      | .thresholdConfig => [14, 8]
      | .layoutConfig => [9, 4]
      | .shutdown => [3, 8] := fun c => by
    cases c <;> decide
  intro c d h
  have hcd := (hhead c).symm.trans ((congrArg (fun u => u.digits.take 2) h).trans (hhead d))
  revert hcd
  cases c <;> cases d <;> simp

theorem any_isLower_rawValue (c : Characteristics) :
    c.rawValue.toList.any Char.isLower = true := by
  cases c <;> decide

theorem rawValue_of_ofRawValue {s : String} {c : Characteristics} (h : ofRawValue s = some c) :
    c.rawValue = s := by
  simpa using List.find?_some h

end Characteristics

/-- `BluetoothConfig.getCharacteristicByUUID`. -/
def getCharacteristicByUUID (uuid : String) : Option Characteristics :=
  match Characteristics.ofRawValue uuid with
  | none => none
  | some value => some value

theorem getCharacteristicByUUID_eq (uuid : String) :
    getCharacteristicByUUID uuid = Characteristics.ofRawValue uuid := by
  unfold getCharacteristicByUUID
  split <;> simp_all

/-- A spelling of a UUID is routed to a characteristic of that UUID, or to none. -/
theorem asCBUUID_of_getCharacteristicByUUID {s : String} {c : Characteristics}
    (h : getCharacteristicByUUID s = some c) : c.asCBUUID = CBUUID.ofString s := by
  rw [getCharacteristicByUUID_eq] at h
  rw [Characteristics.asCBUUID, Characteristics.rawValue_of_ofRawValue h]

/-- **No printed UUID is routed to a characteristic**: the spellings differ in their case. -/
theorem getCharacteristicByUUID_uuidString (uuid : CBUUID) :
    getCharacteristicByUUID uuid.uuidString = none := by
  rw [getCharacteristicByUUID_eq]
  refine List.find?_eq_none.2 fun c _ hc => ?_
  obtain ⟨d, hd, hlower⟩ := List.any_eq_true.1 c.any_isLower_rawValue
  rw [beq_iff_eq.1 hc] at hd
  rw [CBUUID.isLower_of_mem_uuidString hd] at hlower
  cases hlower

end Rx7.Bluetooth
