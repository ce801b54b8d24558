import Rx7.Bluetooth.Connection
import Rx7.Bluetooth.Log

/-!
# Reads and writes that were requested

Of what the manager requests, the reads and the writes name a peripheral and a characteristic
(`transfers`). Each of them comes from a call of its own, and what the call finds determines it
(`requestOf`); no other event requests any (`transfers_step`). The peripheral was discovered, and
so was the characteristic (`found_step`).
-/

namespace Rx7.Bluetooth

open Queues Transition

/-- A read or a write that was requested. -/
def Occurrence.transfer {κ : Type} : Occurrence κ → Option Request
  | .requested request => if request.addressed.isSome then some request else none
  | _ => none

/-- The peripheral that an event reports. -/
def Event.peripheral {κ : Type} : Event κ → Option CBPeripheral
  | .didDiscover peripheral => some peripheral
  | _ => none

/-- The characteristics that an event reports. -/
def Event.characteristics {κ : Type} : Event κ → List CBCharacteristic
  | .didDiscoverCharacteristicsFor _ characteristics => characteristics.getD []
  | _ => []

namespace System

variable {κ α : Type} {describe : CBUUID → String} {invoke : κ → Option Data → α → Option α}
  {s t : System κ α} {e : Event κ} {c : Characteristics} {value : Option Data}

/-- The reads and the writes that were requested, in order. -/
def transfers (s : System κ α) : List Request := s.log.filterMap Occurrence.transfer

/-- The read that is requested, where the characteristic is found and no cached value answers it. -/
def requestOfRead (s : System κ α) (c : Characteristics) : Option Request :=
  match s.manager.characteristicMap c.asCBUUID, s.manager.connectedPeripheral with
  | some characteristic, some peripheral =>
    if (s.values characteristic).isSome ∧ characteristic.notify then none
    else some (.readValue peripheral characteristic)
  | _, _ => none

/-- The write that is requested, where the characteristic is found. -/
def requestOfWrite (s : System κ α) (data : Option Data) (c : Characteristics)
    (type : CBCharacteristicWriteType) : Option Request :=
  match s.manager.connectedPeripheral, s.manager.characteristicMap c.asCBUUID with
  | some peripheral, some characteristic =>
    some (.writeValue peripheral characteristic (data.getD (.ofBytes [] fun _ => 0)) type)
  | _, _ => none

/-- The read or the write that an event requests. -/
def requestOf (s : System κ α) : Event κ → Option Request
  | .call (.read c _) => s.requestOfRead c
  | .call (.write data c _) => s.requestOfWrite data c .withResponse
  | .call (.writeValue data c withResponse) =>
    s.requestOfWrite data c (if withResponse then .withResponse else .withoutResponse)
  | _ => none

theorem transfers_of_log {os : List (Occurrence κ)} (h : t.log = s.log ++ os) :
    t.transfers = s.transfers ++ os.filterMap Occurrence.transfer := by
  rw [transfers, h, List.filterMap_append, transfers]

/-- What is no read and no write is left out. -/
theorem transfers_eq_of_log (os : List (Occurrence κ)) (h : t.log = s.log ++ os)
    (hos : ∀ o ∈ os, o.transfer = none) : t.transfers = s.transfers := by
  rw [transfers_of_log h, List.filterMap_eq_nil_iff.2 hos, List.append_nil]

/-! ## One step -/

theorem transfers_of_replies (h : Replies s t) : t.transfers = s.transfers := by
  refine h.filterMap_eq fun o ho => ?_
  cases o with
  | requested request => cases ho
  | _ => rfl

theorem transfers_requested {request : Request} (hrequest : request.addressed.isSome = true)
    (os : List (Occurrence κ)) (hos : ∀ o ∈ os, o.transfer = none)
    (h : t.log = s.log ++ (os ++ [.requested request])) :
    t.transfers = s.transfers ++ [request] := by
  have htransfer : Occurrence.transfer (.requested request : Occurrence κ) = some request :=
    if_pos hrequest
  rw [transfers_of_log h, List.filterMap_append, List.filterMap_eq_nil_iff.2 hos,
    List.filterMap_cons_some htransfer, List.filterMap_nil, List.nil_append]

theorem transfers_read {closure : κ} (h : s.read invoke c closure = some t) :
    t.transfers = s.transfers ++ (s.requestOfRead c).toList := by
  unfold read at h
  unfold requestOfRead
  cases hch : s.manager.characteristicMap c.asCBUUID with
  | none =>
    rw [hch] at h
    obtain rfl := Option.some.inj h
    exact (List.append_nil _).symm
  | some ch =>
    cases hp : s.manager.connectedPeripheral with
    | none =>
      rw [hch, hp] at h
      obtain rfl := Option.some.inj h
      exact (List.append_nil _).symm
    | some p =>
      rw [hch, hp] at h
      dsimp only at h ⊢
      have hqueue : ∀ u, some (s.queueRead p ch c closure) = some u →
          u.transfers = s.transfers ++ [.readValue p ch] := by
        intro u hu
        obtain rfl := Option.some.inj hu
        exact transfers_requested rfl [.readAccepted c closure]
          (by simp [Occurrence.transfer]) rfl
      cases hvalue : s.values ch with
      | none =>
        rw [hvalue] at h
        exact hqueue t h
      | some value =>
        cases hnotify : ch.notify with
        | false =>
          rw [hvalue, hnotify] at h
          exact hqueue t h
        | true =>
          rw [hvalue, hnotify] at h
          obtain ⟨app, -, rfl⟩ := enter_eq_some h
          refine (transfers_eq_of_log [.readAccepted c closure,
            .readAnswered c closure (some value)] rfl (by simp [Occurrence.transfer])).trans ?_
          exact (List.append_nil _).symm

theorem transfers_writeValue (s : System κ α) (data : Option Data) (c : Characteristics)
    (withResponse : Bool) (handler : Option κ) :
    (s.writeValue data c withResponse handler).transfers = s.transfers ++ (s.requestOfWrite data c
      (if withResponse then .withResponse else .withoutResponse)).toList := by
  unfold writeValue requestOfWrite
  cases s.manager.connectedPeripheral with
  | none => exact (List.append_nil _).symm
  | some p =>
    cases s.manager.characteristicMap c.asCBUUID with
    | none => exact (List.append_nil _).symm
    | some ch =>
      cases withResponse with
      | true => exact transfers_requested rfl [] (by simp) rfl
      | false => exact transfers_requested rfl [] (by simp) rfl

theorem transfers_write (s : System κ α) (data : Option Data) (c : Characteristics) (handler : κ) :
    (s.write data c handler).transfers =
      s.transfers ++ (s.requestOfWrite data c .withResponse).toList := by
  cases hch : s.manager.characteristicMap c.asCBUUID with
  | none =>
    unfold write requestOfWrite
    rw [hch]
    cases s.manager.connectedPeripheral <;> exact (List.append_nil _).symm
  | some ch =>
    have hqueued : (s.queueHandler c handler).transfers = s.transfers :=
      transfers_eq_of_log [.writeAccepted c handler] rfl (by simp [Occurrence.transfer])
    have hwrite : s.write data c handler =
        (s.queueHandler c handler).writeValue data c true (some handler) := by
      rw [write, hch]
    rw [hwrite, transfers_writeValue, hqueued]
    rfl

/-- **What a step reads and writes** is what its event requests. -/
theorem transfers_step (h : s.step describe invoke e = some t) :
    t.transfers = s.transfers ++ (s.requestOf e).toList := by
  have h := (react_of_step h).2
  cases e with
  | call call =>
    cases call with
    | read c closure => exact transfers_read h
    | subscribe c closure =>
      obtain rfl := Option.some.inj h
      exact (List.append_nil _).symm
    | write data c handler =>
      obtain rfl := Option.some.inj h
      exact s.transfers_write data c handler
    | writeValue data c withResponse =>
      obtain rfl := Option.some.inj h
      exact s.transfers_writeValue data c withResponse none
  | callbackReturned =>
    exact (transfers_of_replies (replies_callbackReturned h)).trans (List.append_nil _).symm
  | didUpdateValueFor ch value error =>
    exact (transfers_of_replies (replies_didUpdateValueFor h)).trans (List.append_nil _).symm
  | didWriteValueFor ch error =>
    exact (transfers_of_replies (replies_didWriteValueFor h)).trans (List.append_nil _).symm
  | didDisconnect p =>
    obtain rfl := Option.some.inj h
    exact (List.append_nil _).symm
  | centralManagerDidUpdateState state =>
    obtain rfl := Option.some.inj h
    refine Eq.trans ?_ (List.append_nil _).symm
    cases state with
    | poweredOn =>
      exact transfers_eq_of_log [.requested .scanForPeripherals] rfl
        (by simp [Occurrence.transfer, Request.addressed])
    | _ => rfl
  | didDiscover p =>
    obtain rfl := Option.some.inj h
    refine Eq.trans ?_ (List.append_nil _).symm
    exact transfers_eq_of_log [.requested .stopScan, .requested (.connect p)] rfl
      (by simp [Occurrence.transfer, Request.addressed])
  | didConnect p =>
    obtain rfl := Option.some.inj h
    refine Eq.trans ?_ (List.append_nil _).symm
    unfold didConnect
    cases s.manager.connectedPeripheral with
    | none => rfl
    | some p =>
      exact transfers_eq_of_log [.requested (.discoverServices p)] rfl
        (by simp [Occurrence.transfer, Request.addressed])
  | didDiscoverServices p services =>
    obtain rfl := Option.some.inj h
    refine Eq.trans ?_ (List.append_nil _).symm
    cases services with
    | none => rfl
    | some services =>
      refine transfers_eq_of_log (services.map fun service =>
        .requested (.discoverCharacteristics p service)) rfl fun o ho => ?_
      obtain ⟨service, -, rfl⟩ := List.mem_map.1 ho
      rfl
  | didDiscoverCharacteristicsFor p cs =>
    obtain rfl := Option.some.inj h
    refine Eq.trans ?_ (List.append_nil _).symm
    cases cs with
    | none => rfl
    | some cs =>
      obtain ⟨os, hlog, hos⟩ := log_addCharacteristics p cs
        { s with manager := { s.manager with state := .connected } }
      refine transfers_eq_of_log _ hlog fun o ho => ?_
      cases o with
      | requested request => simp [Occurrence.transfer, hos request ho]
      | _ => rfl

/-! ## What is found -/

/-- The connected peripheral and the characteristics of the map are among those reported. -/
structure Found (peripherals : List CBPeripheral) (characteristics : List CBCharacteristic)
    (s : System κ α) : Prop where
  peripheral : ∀ p, s.manager.connectedPeripheral = some p → p ∈ peripherals
  characteristic : ∀ uuid ch, s.manager.characteristicMap uuid = some ch → ch ∈ characteristics

/-- What is requested of a characteristic names the one that was found under its UUID. -/
theorem Found.requestOfRead {peripherals : List CBPeripheral}
    {characteristics : List CBCharacteristic} (hs : Found peripherals characteristics s)
    (hd : s.Discovered) {request : Request} (h : s.requestOfRead c = some request) :
    ∃ p ∈ peripherals, ∃ ch ∈ characteristics, ch.uuid = c.asCBUUID ∧
      request = .readValue p ch := by
  unfold System.requestOfRead at h
  cases hch : s.manager.characteristicMap c.asCBUUID with
  | none =>
    rw [hch] at h
    cases h
  | some ch =>
    cases hp : s.manager.connectedPeripheral with
    | none =>
      rw [hch, hp] at h
      cases h
    | some p =>
      rw [hch, hp] at h
      dsimp only at h
      split_ifs at h
      exact ⟨p, hs.peripheral p hp, ch, hs.characteristic _ ch hch, hd.uuid_eq _ ch hch,
        (Option.some.inj h).symm⟩

theorem Found.requestOfWrite {peripherals : List CBPeripheral}
    {characteristics : List CBCharacteristic} (hs : Found peripherals characteristics s)
    (hd : s.Discovered) {data : Option Data} {type : CBCharacteristicWriteType} {request : Request}
    (h : s.requestOfWrite data c type = some request) :
    ∃ p ∈ peripherals, ∃ ch ∈ characteristics, ch.uuid = c.asCBUUID ∧
      request = .writeValue p ch (data.getD (.ofBytes [] fun _ => 0)) type := by
  unfold System.requestOfWrite at h
  cases hp : s.manager.connectedPeripheral with
  | none =>
    rw [hp] at h
    cases h
  | some p =>
    cases hch : s.manager.characteristicMap c.asCBUUID with
    | none =>
      rw [hp, hch] at h
      cases h
    | some ch =>
      rw [hp, hch] at h
      exact ⟨p, hs.peripheral p hp, ch, hs.characteristic _ ch hch, hd.uuid_eq _ ch hch,
        (Option.some.inj h).symm⟩

theorem found_step {peripherals : List CBPeripheral} {characteristics : List CBCharacteristic}
    (hs : Found peripherals characteristics s) (h : s.step describe invoke e = some t) :
    Found (peripherals ++ e.peripheral.toList) (characteristics ++ e.characteristics) t := by
  rcases link_cases h with ⟨hsame, he⟩ | ⟨state, rfl, rfl⟩ | ⟨p, rfl, rfl⟩ |
    ⟨p, cs, rfl, -, -, rfl⟩
  · refine ⟨fun p hp => List.mem_append_left _ ?_, fun uuid ch hch => List.mem_append_left _ ?_⟩
    · exact hs.peripheral p (hsame.connectedPeripheral ▸ hp)
    · exact hs.characteristic uuid ch (hsame.characteristicMap ▸ hch)
  · have hmanager : (s.centralManagerDidUpdateState state).manager = s.manager := by
      cases state <;> rfl
    refine ⟨fun p hp => List.mem_append_left _ ?_, fun uuid ch hch => List.mem_append_left _ ?_⟩
    · exact hs.peripheral p (hmanager ▸ hp)
    · exact hs.characteristic uuid ch (hmanager ▸ hch)
  · refine ⟨fun p' hp => ?_, fun uuid ch hch => ?_⟩
    · obtain rfl := Option.some.inj hp
      exact List.mem_append_right _ (List.mem_singleton_self p)
    · exact List.mem_append_left _ (hs.characteristic uuid ch hch)
  · cases cs with
    | none =>
      refine ⟨fun p' hp => List.mem_append_left _ (hs.peripheral p' hp), fun uuid ch hch => ?_⟩
      exact List.mem_append_left _ (hs.characteristic uuid ch hch)
    | some chs =>
      have hconnected := foldl_addCharacteristic (·.manager.connectedPeripheral)
        (fun u ch => connectedPeripheral_addCharacteristic u p ch) chs
        { s with manager := { s.manager with state := .connected } }
      refine ⟨fun p' hp => List.mem_append_left _ (hs.peripheral p' (hconnected.symm.trans hp)),
        fun uuid ch hch => ?_⟩
      rcases mem_addCharacteristics hch with hch | hch
      · exact List.mem_append_left _ (hs.characteristic uuid ch hch)
      · exact List.mem_append_right _ hch

end System

end Rx7.Bluetooth
