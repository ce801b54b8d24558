import Rx7.Bluetooth.Config
import Rx7.Foundations.Queues
import Rx7.Foundations.Transition
import Rx7.Swift.Data

/-!
# The Bluetooth manager

`BluetoothManager` shares one Bluetooth connection among the parts of the app. They hand it
closures: listeners of a characteristic, callbacks of a read request, handlers of a write's
acknowledgement. A closure may call the manager again while it runs, so a delegate method that
calls closures in a loop is left in the middle of the loop while the program does other things.

`System` is the manager with what it lives in: the CoreBluetooth objects, the state of the rest of
the app (`app`) and the control, that is, the delegate method being run (`Handler`, with the
closures it has still to call) and the number of closures nested in it by reads answered at once.
A step (`Event`) ends whenever a closure is entered or the program is idle. While a closure runs,
any call may come, or its return (`callbackReturned`); delegate methods are called only when the
program is idle, since all of it runs on the main queue. What a closure does to the rest of the app
is the parameter `invoke`; how CoreBluetooth prints a UUID is the parameter `describe`.

`log` records what happened, for the statements about whole runs.
-/

namespace Rx7.Bluetooth

open Queues

/-! ## CoreBluetooth -/

structure CBPeripheral where
  identifier : ℕ
  deriving DecidableEq

/-- A characteristic object of a peripheral; `notify` is `properties.contains(.notify)`. Objects
that CoreBluetooth makes anew for a rediscovered characteristic differ in their `handle`. -/
structure CBCharacteristic where
  peripheral : CBPeripheral
  handle : ℕ
  uuid : CBUUID
  notify : Bool
  deriving DecidableEq

structure CBService where
  identifier : ℕ
  deriving DecidableEq

inductive CBManagerState
  | unknown | resetting | unsupported | unauthorized | poweredOff | poweredOn
  deriving DecidableEq

inductive CBCharacteristicWriteType
  | withResponse | withoutResponse
  deriving DecidableEq

/-- An error; the manager only looks whether there is one. -/
structure Error where
  description : String

/-- What the manager asks of CoreBluetooth. -/
inductive Request
  | scanForPeripherals
  | stopScan
  | connect (peripheral : CBPeripheral)
  | discoverServices (peripheral : CBPeripheral)
  | discoverCharacteristics (peripheral : CBPeripheral) (service : CBService)
  | setNotifyValue (peripheral : CBPeripheral) (characteristic : CBCharacteristic)
  | readValue (peripheral : CBPeripheral) (characteristic : CBCharacteristic)
  | writeValue (peripheral : CBPeripheral) (characteristic : CBCharacteristic) (data : Data)
      (type : CBCharacteristicWriteType)

/-! ## The manager -/

inductive BluetoothState
  | unknown | poweredOff | poweredOn | searching | connecting | connected | active | stalled
  deriving DecidableEq

def BluetoothState.rawValue : BluetoothState → String
  | .unknown => "Unknown"
  | .poweredOff => "Powered Off"
  | .poweredOn => "Powered On"
  | .searching => "Searching"
  | .connecting => "Connecting"
  | .connected => "Connected"
  | .active => "Active"
  | .stalled => "Stalled"

/-- The fields of the manager, over the type `κ` of the closures it is given. -/
structure BluetoothManager (κ : Type) where
  connectedPeripheral : Option CBPeripheral := none
  characteristicMap : CBUUID → Option CBCharacteristic := fun _ => none
  listeners : Characteristics → Option (List κ) := fun _ => none
  readRequestCallbacks : Characteristics → Option (List κ) := fun _ => none
  writeWithResponseRequestCallbacks : Characteristics → Option (List κ) := fun _ => none
  state : BluetoothState := .unknown

/-- The delegate method being run: the loop of `handleUpdate` over the listeners or over the read
callbacks, with the closures still to be called, or an acknowledgement's handler. -/
inductive Handler (κ : Type)
  | notifying (c : Characteristics) (value : Option Data) (rest : List κ)
  | answering (c : Characteristics) (value : Option Data) (rest : List κ)
  | acknowledging (c : Characteristics)

/-- A write with response that its peripheral has not acknowledged, with the handler queued for
it. -/
structure PendingWrite (κ : Type) where
  characteristic : CBCharacteristic
  data : Data
  handler : Option κ

/-- What happened, for the record. -/
inductive Occurrence (κ : Type)
  | requested (request : Request)
  | readAccepted (c : Characteristics) (closure : κ)
  | readAnswered (c : Characteristics) (closure : κ) (value : Option Data)
  | listenerCalled (c : Characteristics) (closure : κ) (value : Option Data)
  | writeAccepted (c : Characteristics) (handler : κ)
  | acknowledged (characteristic : CBCharacteristic) (error : Option Error)
  | handlerCalled (c : Characteristics) (handler : κ) (value : Option Data)

/-- The manager, the CoreBluetooth objects, the rest of the app and the control. -/
structure System (κ α : Type) where
  app : α
  manager : BluetoothManager κ := {}
  /-- The cached `value` of each characteristic object. -/
  values : CBCharacteristic → Option Data := fun _ => none
  /-- The peripherals whose delegate is the manager. -/
  delegates : List CBPeripheral := []
  centralState : CBManagerState := .unknown
  unacknowledged : List (PendingWrite κ) := []
  handler : Option (Handler κ) := none
  nested : ℕ := 0
  log : List (Occurrence κ) := []

/-- The calls that closures and the rest of the app make. -/
inductive Call (κ : Type)
  | read (c : Characteristics) (closure : κ)
  | subscribe (c : Characteristics) (closure : κ)
  | write (data : Option Data) (c : Characteristics) (handler : κ)
  | writeValue (data : Option Data) (c : Characteristics) (withResponse : Bool)

inductive Event (κ : Type)
  | call (call : Call κ)
  | callbackReturned
  | centralManagerDidUpdateState (state : CBManagerState)
  | didDiscover (peripheral : CBPeripheral)
  | didConnect (peripheral : CBPeripheral)
  | didDisconnect (peripheral : CBPeripheral)
  | didDiscoverServices (peripheral : CBPeripheral) (services : Option (List CBService))
  | didDiscoverCharacteristicsFor (peripheral : CBPeripheral)
      (characteristics : Option (List CBCharacteristic))
  | didUpdateValueFor (characteristic : CBCharacteristic) (value : Option Data)
      (error : Option Error)
  | didWriteValueFor (characteristic : CBCharacteristic) (error : Option Error)

namespace System

variable {κ α : Type} (describe : CBUUID → String) (invoke : κ → Option Data → α → Option α)
  (s : System κ α)

/-- No closure of the manager is running. -/
def Idle : Prop := s.handler = none ∧ s.nested = 0

instance : Decidable s.Idle :=
  decidable_of_iff (s.handler.isNone = true ∧ s.nested = 0) (by simp [Idle])

def record (o : Occurrence κ) : System κ α := { s with log := s.log ++ [o] }

/-- Enter a closure: what it does to the rest of the app, or a trap there. -/
def enter (closure : κ) (value : Option Data) : Option (System κ α) :=
  (invoke closure value s.app).map fun app => { s with app }

/-! ### The calls -/

/-- `write(data:forCharacteristic:withResponse:)`; `handler` is the one queued for the write. -/
def writeValue (data : Option Data) (c : Characteristics) (withResponse : Bool)
    (handler : Option κ) : System κ α :=
  match s.manager.connectedPeripheral, s.manager.characteristicMap c.asCBUUID with
  | some peripheral, some cbCharacteristic =>
    let writtenData := data.getD (.ofBytes [] fun _ => 0)
    if withResponse then
      let request := .writeValue peripheral cbCharacteristic writtenData .withResponse
      { s.record (.requested request) with
        unacknowledged := s.unacknowledged ++ [⟨cbCharacteristic, writtenData, handler⟩] }
    else
      s.record (.requested (.writeValue peripheral cbCharacteristic writtenData .withoutResponse))
  | _, _ => s

/-- Queue the handler of a write. -/
def queueHandler (c : Characteristics) (handler : κ) : System κ α :=
  { s.record (.writeAccepted c handler) with
    manager := { s.manager with
      writeWithResponseRequestCallbacks :=
        enqueue s.manager.writeWithResponseRequestCallbacks c handler } }

/-- `write(data:forCharacteristic:_:)`. -/
def write (data : Option Data) (c : Characteristics) (handler : κ) : System κ α :=
  match s.manager.characteristicMap c.asCBUUID with
  | none => s
  | some _ => (s.queueHandler c handler).writeValue data c true (some handler)

/-- Answer a read at once, from the cached value of a notifying characteristic. -/
def answerCached (c : Characteristics) (closure : κ) (value : Data) : Option (System κ α) :=
  enter invoke
    { s with
      nested := s.nested + 1
      log := s.log ++ [.readAccepted c closure, .readAnswered c closure (some value)] }
    closure (some value)

/-- Queue the closure of a read and ask the peripheral. -/
def queueRead (peripheral : CBPeripheral) (readingCharacteristic : CBCharacteristic)
    (c : Characteristics) (closure : κ) : System κ α :=
  { s with
    manager := { s.manager with
      readRequestCallbacks := enqueue s.manager.readRequestCallbacks c closure }
    log := s.log ++ [.readAccepted c closure,
      .requested (.readValue peripheral readingCharacteristic)] }

/-- `read(characteristic:_:)`. -/
def read (c : Characteristics) (closure : κ) : Option (System κ α) :=
  match s.manager.characteristicMap c.asCBUUID, s.manager.connectedPeripheral with
  | some readingCharacteristic, some peripheral =>
    match s.values readingCharacteristic, readingCharacteristic.notify with
    | some value, true => s.answerCached invoke c closure value
    | _, _ => some (s.queueRead peripheral readingCharacteristic c closure)
  | _, _ => some s

/-- `subscribe(to:_:)`. -/
def subscribe (c : Characteristics) (closure : κ) : System κ α :=
  { s with manager := { s.manager with listeners := enqueue s.manager.listeners c closure } }

def call : Call κ → Option (System κ α)
  | .read c closure => s.read invoke c closure
  | .subscribe c closure => some (s.subscribe c closure)
  | .write data c handler => some (s.write data c handler)
  | .writeValue data c withResponse => some (s.writeValue data c withResponse none)

/-! ### The delegate methods -/

/-- The second loop of `handleUpdate`, over the read callbacks copied from the dictionary, and the
clearing behind it. -/
def answerNext (c : Characteristics) (value : Option Data) : List κ → Option (System κ α)
  | [] => some { s with
      handler := none
      manager := { s.manager with
        readRequestCallbacks := clear s.manager.readRequestCallbacks c } }
  | callback :: rest =>
    enter invoke
      { s.record (.readAnswered c callback value) with handler := some (.answering c value rest) }
      callback value

/-- The first loop of `handleUpdate`, over the listeners, and the way into the second. -/
def notifyNext (c : Characteristics) (value : Option Data) : List κ → Option (System κ α)
  | [] =>
    match s.manager.readRequestCallbacks c with
    | some readCallbacks => s.answerNext invoke c value readCallbacks
    | none => some { s with handler := none }
  | callback :: rest =>
    enter invoke
      { s.record (.listenerCalled c callback value) with handler := some (.notifying c value rest) }
      callback value

/-- `handleUpdate(for:withValue:)`. -/
def handleUpdate (c : Characteristics) (value : Option Data) : Option (System κ α) :=
  s.notifyNext invoke c value ((s.manager.listeners c).getD [])

/-- The switch of `didUpdateValueFor`: five of the six characteristics are dispatched. -/
def updatedCharacteristic (uuid : CBUUID) : Option Characteristics :=
  if uuid = Characteristics.deviceLoad.asCBUUID then some .deviceLoad
  else if uuid = Characteristics.engineData.asCBUUID then some .engineData
  else if uuid = Characteristics.gpsReceiver.asCBUUID then some .gpsReceiver
  else if uuid = Characteristics.thresholdConfig.asCBUUID then some .thresholdConfig
  else if uuid = Characteristics.layoutConfig.asCBUUID then some .layoutConfig
  else none

/-- `peripheral(_:didUpdateValueFor:error:)`. Without an error the characteristic has its new
value when the method is called. -/
def didUpdateValueFor (characteristic : CBCharacteristic) (value : Option Data) :
    Option Error → Option (System κ α)
  | some _ => some s
  | none =>
    let s := { s with values := Function.update s.values characteristic value }
    match updatedCharacteristic characteristic.uuid with
    | some c => s.handleUpdate invoke c (s.values characteristic)
    | none => some s

/-- The earliest unacknowledged write of the UUID is acknowledged. -/
def acknowledge (characteristic : CBCharacteristic) (error : Option Error) : System κ α :=
  { s.record (.acknowledged characteristic error) with
    unacknowledged := s.unacknowledged.eraseP fun w => w.characteristic.uuid = characteristic.uuid }

/-- `writeCallbacks[0](characteristic.value)`. -/
def callHandler (c : Characteristics) (callback : κ) (value : Option Data) :
    Option (System κ α) :=
  enter invoke
    { s.record (.handlerCalled c callback value) with handler := some (.acknowledging c) }
    callback value

/-- `peripheral(_:didWriteValueFor:error:)`: the acknowledgement is routed by the printed UUID. -/
def didWriteValueFor (characteristic : CBCharacteristic) (error : Option Error) :
    Option (System κ α) :=
  let s := s.acknowledge characteristic error
  match getCharacteristicByUUID (describe characteristic.uuid) with
  | none => some s
  | some mappedCharacteristic =>
    match s.manager.writeWithResponseRequestCallbacks mappedCharacteristic with
    | some (callback :: _) =>
      s.callHandler invoke mappedCharacteristic callback (s.values characteristic)
    | _ => some s

/-- `removeFirst(1)` after the handler of an acknowledgement; it traps where nothing is left. -/
def finishAcknowledgement (c : Characteristics) : Option (System κ α) :=
  match s.manager.writeWithResponseRequestCallbacks c with
  | some (_ :: _) => some { s with
      handler := none
      manager := { s.manager with
        writeWithResponseRequestCallbacks :=
          dequeue s.manager.writeWithResponseRequestCallbacks c } }
  | _ => none

/-- A closure returns to the read that called it, or to the delegate method that did. -/
def callbackReturned : Option (System κ α) :=
  match s.nested, s.handler with
  | nested + 1, _ => some { s with nested }
  | 0, some (.notifying c value rest) => s.notifyNext invoke c value rest
  | 0, some (.answering c value rest) => s.answerNext invoke c value rest
  | 0, some (.acknowledging c) => s.finishAcknowledgement c
  | 0, none => none

/-- `centralManagerDidUpdateState`. -/
def centralManagerDidUpdateState (state : CBManagerState) : System κ α :=
  let s := { s with centralState := state }
  match state with
  | .poweredOn => s.record (.requested .scanForPeripherals)
  | _ => s

/-- `centralManager(_:didDiscover:advertisementData:rssi:)`. -/
def didDiscover (peripheral : CBPeripheral) : System κ α :=
  { s with
    manager := { s.manager with state := .connecting, connectedPeripheral := some peripheral }
    delegates := peripheral :: s.delegates
    log := s.log ++ [.requested .stopScan, .requested (.connect peripheral)] }

/-- `centralManager(_:didConnect:)`. -/
def didConnect : System κ α :=
  match s.manager.connectedPeripheral with
  | some connectedPeripheral => s.record (.requested (.discoverServices connectedPeripheral))
  | none => s

/-- `peripheral(_:didDiscoverServices:)`. -/
def didDiscoverServices (peripheral : CBPeripheral) : Option (List CBService) → System κ α
  | none => s
  | some services => { s with
      log := s.log ++ services.map fun service =>
        .requested (.discoverCharacteristics peripheral service) }

/-- One turn of the loop of `didDiscoverCharacteristicsFor`. -/
def addCharacteristic (peripheral : CBPeripheral) (characteristic : CBCharacteristic) :
    System κ α :=
  let s := { s with
    manager := { s.manager with
      characteristicMap :=
        Function.update s.manager.characteristicMap characteristic.uuid (some characteristic) } }
  if characteristic.notify then s.record (.requested (.setNotifyValue peripheral characteristic))
  else s

/-- `peripheral(_:didDiscoverCharacteristicsFor:error:)`. -/
def didDiscoverCharacteristicsFor (peripheral : CBPeripheral) :
    Option (List CBCharacteristic) → System κ α
  | none => s
  | some characteristics =>
    characteristics.foldl (fun s characteristic => s.addCharacteristic peripheral characteristic)
      { s with manager := { s.manager with state := .connected } }

/-! ### The steps -/

/-- The write that the next acknowledgement of a UUID is for: the earliest. -/
def acknowledgedWrite (uuid : CBUUID) : Option (PendingWrite κ) :=
  s.unacknowledged.find? fun w => w.characteristic.uuid = uuid

/-- When CoreBluetooth can call a delegate method: the program is idle, the peripheral's delegate
is the manager and its characteristics are its own, and an acknowledgement is for the earliest
unacknowledged write of its UUID. -/
def Enabled : Event κ → Prop
  | .call _ | .callbackReturned => True
  | .centralManagerDidUpdateState _ | .didDiscover _ | .didConnect _ | .didDisconnect _ => s.Idle
  | .didDiscoverServices peripheral _ => s.Idle ∧ peripheral ∈ s.delegates
  | .didDiscoverCharacteristicsFor peripheral characteristics =>
    s.Idle ∧ peripheral ∈ s.delegates ∧
      ∀ c ∈ characteristics.getD [], c.peripheral = peripheral
  | .didUpdateValueFor characteristic _ _ => s.Idle ∧ characteristic.peripheral ∈ s.delegates
  | .didWriteValueFor characteristic _ =>
    s.Idle ∧ (s.acknowledgedWrite characteristic.uuid).map (·.characteristic) = some characteristic

instance : (e : Event κ) → Decidable (s.Enabled e)
  | .call _ | .callbackReturned => inferInstanceAs (Decidable True)
  | .centralManagerDidUpdateState _ | .didDiscover _ | .didConnect _ | .didDisconnect _ =>
    inferInstanceAs (Decidable s.Idle)
  | .didDiscoverServices peripheral _ =>
    inferInstanceAs (Decidable (s.Idle ∧ peripheral ∈ s.delegates))
  | .didDiscoverCharacteristicsFor peripheral characteristics =>
    inferInstanceAs (Decidable (s.Idle ∧ peripheral ∈ s.delegates ∧
      ∀ c ∈ characteristics.getD [], c.peripheral = peripheral))
  | .didUpdateValueFor characteristic _ _ =>
    inferInstanceAs (Decidable (s.Idle ∧ characteristic.peripheral ∈ s.delegates))
  | .didWriteValueFor characteristic _ =>
    inferInstanceAs (Decidable (s.Idle ∧
      (s.acknowledgedWrite characteristic.uuid).map (·.characteristic) = some characteristic))

/-- What an event does. The manager implements no method for a lost link. -/
def react : Event κ → Option (System κ α)
  | .call c => s.call invoke c
  | .callbackReturned => s.callbackReturned invoke
  | .centralManagerDidUpdateState state => some (s.centralManagerDidUpdateState state)
  | .didDiscover peripheral => some (s.didDiscover peripheral)
  | .didConnect _ => some s.didConnect
  | .didDisconnect _ => some s
  | .didDiscoverServices peripheral services => some (s.didDiscoverServices peripheral services)
  | .didDiscoverCharacteristicsFor peripheral characteristics =>
    some (s.didDiscoverCharacteristicsFor peripheral characteristics)
  | .didUpdateValueFor characteristic value error =>
    s.didUpdateValueFor invoke characteristic value error
  | .didWriteValueFor characteristic error =>
    s.didWriteValueFor describe invoke characteristic error

/-- One step of the system. -/
def step (e : Event κ) : Option (System κ α) :=
  if s.Enabled e then s.react describe invoke e else none

end System

end Rx7.Bluetooth
