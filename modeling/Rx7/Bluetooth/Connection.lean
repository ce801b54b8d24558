import Rx7.Bluetooth.Steps

/-!
# The connection

Three delegate methods change the connection: the central reports its state, a peripheral is
discovered, and so are characteristics (`link_cases`). Every other step leaves it as it is
(`SameLink`), and what it reads or writes is a characteristic of the map, on the connected
peripheral.

* `requests_owned_iff`: the characteristics in the map are the connected peripheral's exactly where
  a peripheral is discovered and its characteristics are, one peripheral at a time.
* `link_state_fresh_iff`: the published state is never stale exactly where the central reports
  nothing but `poweredOn` once a peripheral was discovered.
-/

namespace Rx7.Bluetooth

open Queues Transition

/-- The peripheral and the characteristic that a read or a write passes. -/
def Request.addressed : Request → Option (CBPeripheral × CBCharacteristic)
  | .readValue peripheral characteristic => some (peripheral, characteristic)
  | .writeValue peripheral characteristic _ _ => some (peripheral, characteristic)
  | _ => none

/-- The event is a report of the three that change the connection. -/
def Event.ofLink {κ : Type} : Event κ → Bool
  | .centralManagerDidUpdateState _ | .didDiscover _ | .didDiscoverCharacteristicsFor .. => true
  | _ => false

namespace System

variable {κ α : Type} {describe : CBUUID → String} {invoke : κ → Option Data → α → Option α}
  {s t : System κ α} {e : Event κ} {c : Characteristics} {value : Option Data}

/-- The request reads or writes a characteristic of the map, on the connected peripheral. -/
def Addresses (s : System κ α) (request : Request) : Prop :=
  ∀ p ch, request.addressed = some (p, ch) → s.manager.connectedPeripheral = some p ∧
    ∃ uuid, s.manager.characteristicMap uuid = some ch

/-- The connection is as before, and what was requested addresses it. -/
structure SameLink (s t : System κ α) : Prop where
  connectedPeripheral : t.manager.connectedPeripheral = s.manager.connectedPeripheral
  characteristicMap : t.manager.characteristicMap = s.manager.characteristicMap
  state : t.manager.state = s.manager.state
  delegates : t.delegates = s.delegates
  centralState : t.centralState = s.centralState
  log : ∃ os : List (Occurrence κ), t.log = s.log ++ os ∧
    ∀ request, .requested request ∈ os → s.Addresses request

theorem sameLink_refl (s : System κ α) : SameLink s s :=
  ⟨rfl, rfl, rfl, rfl, rfl, [], by simp, by simp⟩

theorem sameLink_answerCached {closure : κ} {value : Data}
    (h : s.answerCached invoke c closure value = some t) : SameLink s t := by
  obtain ⟨app, -, rfl⟩ := enter_eq_some h
  exact ⟨rfl, rfl, rfl, rfl, rfl, _, rfl, by simp⟩

theorem sameLink_queueRead {p : CBPeripheral} {ch : CBCharacteristic}
    (hp : s.manager.connectedPeripheral = some p)
    (hch : s.manager.characteristicMap c.asCBUUID = some ch) (closure : κ) :
    SameLink s (s.queueRead p ch c closure) := by
  refine ⟨rfl, rfl, rfl, rfl, rfl, _, rfl, fun request hr p' ch' ha => ?_⟩
  obtain rfl : request = .readValue p ch := by simpa using hr
  obtain ⟨rfl, rfl⟩ := Prod.ext_iff.1 (Option.some.inj ha)
  exact ⟨hp, _, hch⟩

theorem sameLink_read {closure : κ} (h : s.read invoke c closure = some t) : SameLink s t := by
  unfold read at h
  split at h
  · rename_i ch p hch hp
    split at h
    · exact sameLink_answerCached h
    · exact Option.some.inj h ▸ sameLink_queueRead hp hch closure
  · exact Option.some.inj h ▸ sameLink_refl s

theorem sameLink_writeValue (s : System κ α) (data : Option Data) (c : Characteristics)
    (withResponse : Bool) (handler : Option κ) :
    SameLink s (s.writeValue data c withResponse handler) := by
  unfold writeValue
  split
  · rename_i p ch hp hch
    have haddresses : ∀ type, s.Addresses
        (.writeValue p ch (data.getD (.ofBytes [] fun _ => 0)) type) := by
      intro type p' ch' ha
      obtain ⟨rfl, rfl⟩ := Prod.ext_iff.1 (Option.some.inj ha)
      exact ⟨hp, _, hch⟩
    have hone : ∀ request' : Request, s.Addresses request' →
        ∀ request, Occurrence.requested request ∈ [(.requested request' : Occurrence κ)] →
          s.Addresses request := by
      intro request' h request hr
      obtain rfl : request = request' := by simpa using hr
      exact h
    split_ifs
    · exact ⟨rfl, rfl, rfl, rfl, rfl, _, rfl, hone _ (haddresses _)⟩
    · exact ⟨rfl, rfl, rfl, rfl, rfl, _, rfl, hone _ (haddresses _)⟩
  · exact sameLink_refl s

theorem sameLink_write (s : System κ α) (data : Option Data) (c : Characteristics) (handler : κ) :
    SameLink s (s.write data c handler) := by
  unfold write
  split
  · exact sameLink_refl s
  · obtain ⟨hp, hm, hstate, hd, hc, os, hlog, hos⟩ :=
      sameLink_writeValue (s.queueHandler c handler) data c true (some handler)
    refine ⟨hp, hm, hstate, hd, hc, .writeAccepted c handler :: os, ?_, fun request hr => ?_⟩
    · rw [hlog]
      exact List.append_assoc _ _ _
    · exact hos request ((List.mem_cons.1 hr).resolve_left (by simp))

theorem sameLink_call {call : Call κ} (h : s.call invoke call = some t) : SameLink s t := by
  cases call with
  | read c closure => exact sameLink_read h
  | subscribe c closure =>
    exact Option.some.inj h ▸ ⟨rfl, rfl, rfl, rfl, rfl, [], by simp [subscribe], by simp⟩
  | write data c handler => exact Option.some.inj h ▸ sameLink_write s data c handler
  | writeValue data c withResponse =>
    exact Option.some.inj h ▸ sameLink_writeValue s data c withResponse none

theorem sameLink_answerNext {rest : List κ} (h : s.answerNext invoke c value rest = some t) :
    SameLink s t := by
  cases rest with
  | nil => exact Option.some.inj h ▸ ⟨rfl, rfl, rfl, rfl, rfl, [], by simp, by simp⟩
  | cons callback rest =>
    obtain ⟨app, -, rfl⟩ := enter_eq_some h
    exact ⟨rfl, rfl, rfl, rfl, rfl, _, rfl, by simp⟩

theorem sameLink_notifyNext {rest : List κ} (h : s.notifyNext invoke c value rest = some t) :
    SameLink s t := by
  cases rest with
  | nil =>
    rcases notifyNext_nil_cases h with ⟨readCallbacks, -, h⟩ | ⟨-, rfl⟩
    · exact sameLink_answerNext h
    · exact ⟨rfl, rfl, rfl, rfl, rfl, [], by simp, by simp⟩
  | cons callback rest =>
    obtain ⟨app, -, rfl⟩ := enter_eq_some h
    exact ⟨rfl, rfl, rfl, rfl, rfl, _, rfl, by simp⟩

theorem sameLink_callbackReturned (h : s.callbackReturned invoke = some t) : SameLink s t := by
  rcases callbackReturned_cases h with ⟨nested, -, rfl⟩ | ⟨c, value, rest, -, h⟩ |
    ⟨c, value, rest, -, h⟩ | ⟨c, -, h⟩
  · exact ⟨rfl, rfl, rfl, rfl, rfl, [], by simp, by simp⟩
  · exact sameLink_notifyNext h
  · exact sameLink_answerNext h
  · obtain rfl := finishAcknowledgement_eq h
    exact ⟨rfl, rfl, rfl, rfl, rfl, [], by simp, by simp⟩

theorem sameLink_didUpdateValueFor {ch : CBCharacteristic} {error : Option Error}
    (h : s.didUpdateValueFor invoke ch value error = some t) : SameLink s t := by
  let s' : System κ α := { s with values := Function.update s.values ch value }
  have hvalues : SameLink s' t → SameLink s t := fun ht =>
    ⟨ht.connectedPeripheral, ht.characteristicMap, ht.state, ht.delegates, ht.centralState, ht.log⟩
  rcases didUpdateValueFor_cases h with ⟨e, -, rfl⟩ | ⟨-, -, rfl⟩ | ⟨c, -, -, h⟩
  · exact sameLink_refl _
  · exact hvalues (sameLink_refl s')
  · exact hvalues (sameLink_notifyNext h)

theorem sameLink_didWriteValueFor {ch : CBCharacteristic} {error : Option Error}
    (h : s.didWriteValueFor describe invoke ch error = some t) : SameLink s t := by
  rcases didWriteValueFor_cases h with ⟨rfl, -⟩ | ⟨c, callback, rest, -, -, h⟩
  · exact ⟨rfl, rfl, rfl, rfl, rfl, _, rfl, by simp⟩
  · obtain ⟨app, -, rfl⟩ := enter_eq_some h
    exact ⟨rfl, rfl, rfl, rfl, rfl, _, List.append_assoc _ _ _, by simp⟩

/-- **What a step does to the connection.** -/
theorem link_cases (h : s.step describe invoke e = some t) :
    (SameLink s t ∧ e.ofLink = false) ∨
    (∃ state, e = .centralManagerDidUpdateState state ∧
      t = s.centralManagerDidUpdateState state) ∨
    (∃ p, e = .didDiscover p ∧ t = s.didDiscover p) ∨
    (∃ p cs, e = .didDiscoverCharacteristicsFor p cs ∧ p ∈ s.delegates ∧
      (∀ ch ∈ cs.getD [], ch.peripheral = p) ∧ t = s.didDiscoverCharacteristicsFor p cs) := by
  obtain ⟨hen, h⟩ := react_of_step h
  cases e with
  | call call => exact .inl ⟨sameLink_call h, rfl⟩
  | callbackReturned => exact .inl ⟨sameLink_callbackReturned h, rfl⟩
  | centralManagerDidUpdateState state => exact .inr (.inl ⟨state, rfl, (Option.some.inj h).symm⟩)
  | didDiscover p => exact .inr (.inr (.inl ⟨p, rfl, (Option.some.inj h).symm⟩))
  | didConnect p =>
    refine .inl ⟨?_, rfl⟩
    obtain rfl := Option.some.inj h
    unfold didConnect
    split
    · exact ⟨rfl, rfl, rfl, rfl, rfl, _, rfl, by simp [Addresses, Request.addressed]⟩
    · exact sameLink_refl s
  | didDisconnect p => exact .inl ⟨Option.some.inj h ▸ sameLink_refl s, rfl⟩
  | didDiscoverServices p services =>
    refine .inl ⟨?_, rfl⟩
    obtain rfl := Option.some.inj h
    cases services with
    | none => exact sameLink_refl s
    | some services =>
      refine ⟨rfl, rfl, rfl, rfl, rfl, _, rfl, fun request hr => ?_⟩
      obtain ⟨service, -, he⟩ := List.mem_map.1 hr
      obtain rfl := Occurrence.requested.inj he
      simp [Addresses, Request.addressed]
  | didDiscoverCharacteristicsFor p cs =>
    exact .inr (.inr (.inr ⟨p, cs, rfl, hen.2.1, hen.2.2, (Option.some.inj h).symm⟩))
  | didUpdateValueFor ch value error => exact .inl ⟨sameLink_didUpdateValueFor h, rfl⟩
  | didWriteValueFor ch error => exact .inl ⟨sameLink_didWriteValueFor h, rfl⟩

theorem discovered_step (hs : s.Discovered) (h : s.step describe invoke e = some t) :
    t.Discovered := by
  rcases link_cases h with ⟨hsame, -⟩ | ⟨state, rfl, rfl⟩ | ⟨p, rfl, rfl⟩ |
    ⟨p, cs, rfl, hp, -, rfl⟩
  · exact hs.of_eq hsame.connectedPeripheral hsame.characteristicMap hsame.delegates
  · exact (quiet_centralManagerDidUpdateState s state).discovered hs
  · exact (quiet_didDiscover s p).discovered hs
  · exact (Quiet.didDiscoverCharacteristicsFor hp cs).discovered hs

/-! ## Whose characteristics -/

/-- Every characteristic of the map belongs to the connected peripheral. -/
def Owned (s : System κ α) : Prop :=
  ∀ uuid ch, s.manager.characteristicMap uuid = some ch →
    s.manager.connectedPeripheral = some ch.peripheral

/-- Every read and write so far passed a characteristic of the peripheral it was issued on. -/
def RequestsOwned (s : System κ α) : Prop :=
  ∀ request, .requested request ∈ s.log → ∀ p ch, request.addressed = some (p, ch) →
    ch.peripheral = p

/-- The peripheral that was discovered last. -/
def lastDiscovered (es : List (Event κ)) : Option CBPeripheral :=
  (es.filterMap fun e => match e with
    | .didDiscover p => some p
    | _ => none).getLast?

/-- The peripheral had characteristics discovered. -/
def CharacteristicsFound (es : List (Event κ)) (p : CBPeripheral) : Prop :=
  ∃ chs, chs ≠ [] ∧ .didDiscoverCharacteristicsFor p (some chs) ∈ es

/-- One peripheral at a time: no other is discovered once there are characteristics, and these are
discovered only on the peripheral that was discovered last. -/
def OnePeripheral (es : List (Event κ)) : Event κ → Prop
  | .didDiscover p => ∀ q, CharacteristicsFound es q → q = p
  | .didDiscoverCharacteristicsFor p (some chs) => chs ≠ [] → lastDiscovered es = some p
  | _ => True

theorem requestsOwned_of_log {os : List (Occurrence κ)} (hs : s.RequestsOwned)
    (h : t.log = s.log ++ os) (hos : ∀ request, .requested request ∈ os →
      ∀ p ch, request.addressed = some (p, ch) → ch.peripheral = p) : t.RequestsOwned := by
  intro request hr
  rw [h] at hr
  exact (List.mem_append.1 hr).elim (hs request) (hos request)

theorem SameLink.owned_iff (h : SameLink s t) : t.Owned ↔ s.Owned := by
  rw [Owned, h.connectedPeripheral, h.characteristicMap, Owned]

/-- What is read and written belongs to the connected peripheral as long as the map does. -/
theorem SameLink.requestsOwned (h : SameLink s t) (hs : s.Owned) (hr : s.RequestsOwned) :
    t.RequestsOwned := by
  obtain ⟨os, hlog, hos⟩ := h.log
  refine requestsOwned_of_log hr hlog fun request hmem p ch ha => ?_
  obtain ⟨hp, uuid, hch⟩ := hos request hmem p ch ha
  exact Option.some.inj ((hs uuid ch hch).symm.trans hp)

/-! ### The characteristics of a peripheral -/

theorem characteristicMap_addCharacteristic (s : System κ α) (p : CBPeripheral)
    (ch : CBCharacteristic) : (s.addCharacteristic p ch).manager.characteristicMap =
      Function.update s.manager.characteristicMap ch.uuid (some ch) := by
  obtain ⟨log, hs⟩ := addCharacteristic_frame s p ch
  rw [hs]

theorem connectedPeripheral_addCharacteristic (s : System κ α) (p : CBPeripheral)
    (ch : CBCharacteristic) :
    (s.addCharacteristic p ch).manager.connectedPeripheral = s.manager.connectedPeripheral := by
  obtain ⟨log, hs⟩ := addCharacteristic_frame s p ch
  rw [hs]

theorem mem_addCharacteristics {p : CBPeripheral} {chs : List CBCharacteristic} {uuid : CBUUID}
    {ch : CBCharacteristic} (h : (chs.foldl (fun s ch => s.addCharacteristic p ch)
      s).manager.characteristicMap uuid = some ch) :
    s.manager.characteristicMap uuid = some ch ∨ ch ∈ chs := by
  induction chs generalizing s with
  | nil => exact .inl h
  | cons first chs ih =>
    rcases ih h with h | h
    · rw [characteristicMap_addCharacteristic, Function.update_apply] at h
      split_ifs at h
      · obtain rfl := Option.some.inj h
        exact .inr List.mem_cons_self
      · exact .inl h
    · exact .inr (List.mem_cons_of_mem _ h)

/-- A UUID that had a characteristic has one behind the loop. -/
theorem exists_of_addCharacteristics {p : CBPeripheral} (chs : List CBCharacteristic)
    {uuid : CBUUID} {ch : CBCharacteristic} (h : s.manager.characteristicMap uuid = some ch) :
    ∃ ch', (chs.foldl (fun s ch => s.addCharacteristic p ch) s).manager.characteristicMap uuid =
      some ch' := by
  induction chs using List.reverseRecOn with
  | nil => exact ⟨ch, h⟩
  | append_singleton chs last ih =>
    rw [List.foldl_append, List.foldl_cons, List.foldl_nil, characteristicMap_addCharacteristic,
      Function.update_apply]
    split_ifs
    · exact ⟨last, rfl⟩
    · exact ih

/-- The last characteristic of the loop is in the map. -/
theorem exists_mem_addCharacteristics {p : CBPeripheral} {chs : List CBCharacteristic}
    (hne : chs ≠ []) (s : System κ α) : ∃ uuid, ∃ ch ∈ chs,
      (chs.foldl (fun s ch => s.addCharacteristic p ch) s).manager.characteristicMap uuid =
        some ch := by
  obtain ⟨chs, last, rfl⟩ := (List.eq_nil_or_concat chs).resolve_left hne
  refine ⟨last.uuid, last, by simp, ?_⟩
  rw [List.concat_eq_append, List.foldl_append, List.foldl_cons, List.foldl_nil,
    characteristicMap_addCharacteristic, Function.update_self]

/-- Whether a peripheral's characteristics are added to an owned map: nothing else than theirs is
in it behind the loop, and at least one is, if there is any. -/
theorem owned_addCharacteristics {p : CBPeripheral} {chs : List CBCharacteristic}
    (hchs : ∀ ch ∈ chs, ch.peripheral = p) (hs : s.Owned) :
    (chs.foldl (fun s ch => s.addCharacteristic p ch) s).Owned ↔
      (chs ≠ [] → s.manager.connectedPeripheral = some p) := by
  induction chs using List.reverseRecOn with
  | nil => simpa using hs
  | append_singleton chs ch ih =>
    have ih := ih fun ch' h => hchs ch' (List.mem_append_left _ h)
    have hp : ch.peripheral = p := hchs ch (by simp)
    have hconnected := foldl_addCharacteristic (·.manager.connectedPeripheral)
      (fun u ch => connectedPeripheral_addCharacteristic u p ch) chs s
    have hne : chs ++ [ch] ≠ [] := by simp
    rw [List.foldl_append, List.foldl_cons, List.foldl_nil, forall_prop_of_true hne, Owned,
      characteristicMap_addCharacteristic, connectedPeripheral_addCharacteristic, hconnected]
    refine ⟨fun h => hp ▸ h ch.uuid ch (Function.update_self ..), fun h uuid ch' hch' => ?_⟩
    rw [Function.update_apply] at hch'
    split_ifs at hch' with hu
    · obtain rfl := Option.some.inj hch'
      rw [h, hp]
    · have howned := ih.2 (fun _ => h) uuid ch' hch'
      rwa [hconnected] at howned

theorem log_addCharacteristics (p : CBPeripheral) (chs : List CBCharacteristic)
    (s : System κ α) : ∃ os : List (Occurrence κ),
      (chs.foldl (fun s ch => s.addCharacteristic p ch) s).log = s.log ++ os ∧
      ∀ request, .requested request ∈ os → request.addressed = none := by
  induction chs generalizing s with
  | nil => exact ⟨[], by simp, by simp⟩
  | cons ch chs ih =>
    obtain ⟨os, hlog, hos⟩ := ih (s.addCharacteristic p ch)
    rw [List.foldl_cons, hlog]
    unfold addCharacteristic
    split_ifs
    · refine ⟨.requested (.setNotifyValue p ch) :: os, List.append_assoc _ _ _, fun r hr => ?_⟩
      rcases List.mem_cons.1 hr with hr | hr
      · obtain rfl := Occurrence.requested.inj hr
        rfl
      · exact hos r hr
    · exact ⟨os, rfl, hos⟩

/-- What the history says of the connection: the peripheral is the one discovered last, the
characteristics of the map were discovered, and of each peripheral that had some there is one, as
long as the map is owned. -/
structure Traced (es : List (Event κ)) (s : System κ α) : Prop where
  connectedPeripheral : s.manager.connectedPeripheral = lastDiscovered es
  mapped : ∀ uuid ch, s.manager.characteristicMap uuid = some ch →
    CharacteristicsFound es ch.peripheral
  found : ∀ p, CharacteristicsFound es p →
    ∃ uuid ch, s.manager.characteristicMap uuid = some ch ∧ ch.peripheral = p

theorem lastDiscovered_snoc_didDiscover (es : List (Event κ)) (p : CBPeripheral) :
    lastDiscovered (es ++ [.didDiscover p]) = some p := by
  simp [lastDiscovered]

theorem lastDiscovered_snoc {es : List (Event κ)} (he : ∀ p, e ≠ .didDiscover p) :
    lastDiscovered (es ++ [e]) = lastDiscovered es := by
  cases e with
  | didDiscover p => exact (he p rfl).elim
  | _ => simp [lastDiscovered]

theorem characteristicsFound_snoc {es : List (Event κ)}
    (he : ∀ p chs, chs ≠ [] → e ≠ .didDiscoverCharacteristicsFor p (some chs)) (p : CBPeripheral) :
    CharacteristicsFound (es ++ [e]) p ↔ CharacteristicsFound es p := by
  refine exists_congr fun chs => and_congr_right fun hne => ?_
  rw [List.mem_append, List.mem_singleton, or_iff_left fun h => he p chs hne h.symm]

theorem Traced.snoc {es : List (Event κ)} (h : Traced es s) (he : ∀ p, e ≠ .didDiscover p)
    (he' : ∀ p chs, chs ≠ [] → e ≠ .didDiscoverCharacteristicsFor p (some chs))
    (hp : t.manager.connectedPeripheral = s.manager.connectedPeripheral)
    (hm : t.manager.characteristicMap = s.manager.characteristicMap) : Traced (es ++ [e]) t := by
  refine ⟨?_, fun uuid ch hch => ?_, fun p hfound => ?_⟩
  · rw [hp, h.connectedPeripheral, lastDiscovered_snoc he]
  · rw [characteristicsFound_snoc he']
    exact h.mapped uuid ch (hm ▸ hch)
  · rw [hm]
    exact h.found p ((characteristicsFound_snoc he' p).1 hfound)

/-- A step keeps the map the connected peripheral's exactly where it meets the condition, and what
it reads and writes is that peripheral's. -/
theorem owned_step_iff {es : List (Event κ)} (htraced : Traced es s)
    (hs : s.Owned ∧ s.RequestsOwned) (h : s.step describe invoke e = some t) :
    t.Owned ∧ t.RequestsOwned ↔ OnePeripheral es e := by
  have hnone : ∀ os : List (Occurrence κ), t.log = s.log ++ os →
      (∀ request, .requested request ∈ os → request.addressed = none) → t.RequestsOwned := by
    intro os hlog hos
    refine requestsOwned_of_log hs.2 hlog fun request hr p ch ha => ?_
    rw [hos request hr] at ha
    cases ha
  rcases link_cases h with ⟨hsame, he⟩ | ⟨state, rfl, rfl⟩ | ⟨p, rfl, rfl⟩ |
    ⟨p, cs, rfl, -, hcs, rfl⟩
  · refine iff_of_true ⟨hsame.owned_iff.2 hs.1, hsame.requestsOwned hs.1 hs.2⟩ ?_
    cases e with
    | didDiscover p => cases he
    | didDiscoverCharacteristicsFor p cs => cases he
    | _ => trivial
  · have howned : (s.centralManagerDidUpdateState state).Owned := by
      cases state <;> exact hs.1
    refine iff_of_true ⟨howned, ?_⟩ trivial
    cases state
    case poweredOn =>
      exact hnone [.requested .scanForPeripherals] rfl (by simp [Request.addressed])
    all_goals exact hs.2
  · have hrequests : (s.didDiscover p).RequestsOwned := hnone _ rfl (by simp [Request.addressed])
    rw [and_iff_left hrequests]
    constructor
    · intro howned q hq
      obtain ⟨uuid, ch, hch, rfl⟩ := htraced.found q hq
      exact (Option.some.inj (howned uuid ch hch)).symm
    · intro hp uuid ch hch
      exact congrArg some (hp _ (htraced.mapped uuid ch hch)).symm
  · cases cs with
    | none => exact iff_of_true hs trivial
    | some chs =>
      let s' : System κ α := { s with manager := { s.manager with state := .connected } }
      obtain ⟨os, hlog, hos⟩ := log_addCharacteristics p chs s'
      rw [and_iff_left (hnone os hlog hos), OnePeripheral, ← htraced.connectedPeripheral]
      exact owned_addCharacteristics (s := s') hcs hs.1

theorem traced_step {es : List (Event κ)} (htraced : Traced es s) (hs : s.Owned) (ht : t.Owned)
    (h : s.step describe invoke e = some t) : Traced (es ++ [e]) t := by
  rcases link_cases h with ⟨hsame, he⟩ | ⟨state, rfl, rfl⟩ | ⟨p, rfl, rfl⟩ |
    ⟨p, cs, rfl, -, hcs, rfl⟩
  · refine htraced.snoc ?_ ?_ hsame.connectedPeripheral hsame.characteristicMap
    · rintro p rfl
      cases he
    · rintro p chs - rfl
      cases he
  · refine htraced.snoc (by simp) (by simp) ?_ ?_
    · cases state <;> rfl
    · cases state <;> rfl
  · have hfound : ∀ q, CharacteristicsFound (es ++ [.didDiscover p]) q ↔
        CharacteristicsFound es q := characteristicsFound_snoc (by simp)
    refine ⟨(lastDiscovered_snoc_didDiscover es p).symm, fun uuid ch hch => ?_, fun q hq => ?_⟩
    · exact (hfound _).2 (htraced.mapped uuid ch hch)
    · exact htraced.found q ((hfound q).1 hq)
  · have hnoDiscovery : ∀ q, (.didDiscoverCharacteristicsFor p cs : Event κ) ≠ .didDiscover q := by
      simp
    rcases cs with _ | chs
    · exact htraced.snoc hnoDiscovery (by simp) rfl rfl
    · let s' : System κ α := { s with manager := { s.manager with state := .connected } }
      have hconnected : (s.didDiscoverCharacteristicsFor p (some chs)).manager.connectedPeripheral =
          s.manager.connectedPeripheral :=
        foldl_addCharacteristic (·.manager.connectedPeripheral)
          (fun u ch => connectedPeripheral_addCharacteristic u p ch) chs s'
      refine ⟨?_, fun uuid ch hch => ?_, fun q hq => ?_⟩
      · rw [hconnected, htraced.connectedPeripheral, lastDiscovered_snoc hnoDiscovery]
      · rcases mem_addCharacteristics (s := s') hch with hold | hnew
        · obtain ⟨cs, hne, hmem⟩ := htraced.mapped uuid ch hold
          exact ⟨cs, hne, List.mem_append_left _ hmem⟩
        · rw [hcs ch hnew]
          exact ⟨chs, List.ne_nil_of_mem hnew, List.mem_append_right _ (List.mem_singleton_self _)⟩
      · obtain ⟨cs, hne, hmem⟩ := hq
        rcases List.mem_append.1 hmem with hmem | hmem
        · -- the characteristic that is found under the UUID now is of the same peripheral
          obtain ⟨uuid, ch, hch, rfl⟩ := htraced.found q ⟨cs, hne, hmem⟩
          obtain ⟨ch', hch'⟩ := exists_of_addCharacteristics (s := s') (p := p) chs hch
          have hsame : some ch'.peripheral = some ch.peripheral := by
            rw [← ht uuid ch' hch', hconnected, hs uuid ch hch]
          exact ⟨uuid, ch', hch', Option.some.inj hsame⟩
        · obtain ⟨rfl, hcs'⟩ :=
            Event.didDiscoverCharacteristicsFor.inj (List.mem_singleton.1 hmem)
          obtain rfl := Option.some.inj hcs'
          obtain ⟨uuid, ch, hmem, hch⟩ := exists_mem_addCharacteristics (p := q) hne s'
          exact ⟨uuid, ch, hch, hcs ch hmem⟩

/-- **When every request goes to the peripheral that owns the characteristic.** In every state of
a run the characteristics of the map are the connected peripheral's, and every read and write so
far passed a characteristic of its peripheral, exactly where no other peripheral was discovered
once there were characteristics, and none were discovered on another. -/
theorem requests_owned_iff {app : α} {es : List (Event κ)}
    (h : Run (ofPartial (step describe invoke)) { app } es s) :
    (∀ pre post t, es = pre ++ post → Run (ofPartial (step describe invoke)) { app } pre t →
      t.Owned ∧ t.RequestsOwned) ↔ Throughout OnePeripheral es := by
  have htraced : Traced [] ({ app } : System κ α) := by
    refine ⟨rfl, fun uuid ch hch => ?_, fun p hp => ?_⟩
    · cases hch
    · obtain ⟨chs, -, hmem⟩ := hp
      cases hmem
  refine h.forall_reached_iff_throughout (deterministic_ofPartial _) htraced ⟨?_, ?_⟩
    (fun _ _ _ _ hI hs ht hu => traced_step hI hs.1 hu.1 ht)
    fun _ _ _ _ hI hs ht => owned_step_iff hI hs ht
  · intro uuid ch hch
    cases hch
  · intro request hr
    cases hr

/-- Two peripherals are discovered, the second when the first has its characteristics; then the
layout is read. -/
def readBehindRediscovery : List (Event Unit) :=
  [.didDiscover ⟨0⟩, .didConnect ⟨0⟩,
    .didDiscoverCharacteristicsFor ⟨0⟩
      (some [⟨⟨0⟩, 0, Characteristics.layoutConfig.asCBUUID, false⟩]),
    .didDiscover ⟨1⟩, .call (.read .layoutConfig ())]

/-- The second peripheral is asked for a characteristic of the first. -/
theorem request_misdirected :
    ∃ s : System Unit Unit, Run (ofPartial (step CBUUID.uuidString fun _ _ app => some app))
      { app := () } readBehindRediscovery s ∧ ¬ s.Owned ∧ ¬ s.RequestsOwned := by
  let ch : CBCharacteristic := ⟨⟨0⟩, 0, Characteristics.layoutConfig.asCBUUID, false⟩
  have hrun : Run (ofPartial (step CBUUID.uuidString fun _ _ app => some app))
      ({ app := () } : System Unit Unit) readBehindRediscovery _ := Run.of_foldlM rfl
  refine ⟨_, hrun, fun h => ?_, fun h => ?_⟩
  · cases h Characteristics.layoutConfig.asCBUUID ch rfl
  · cases h (.readValue ⟨1⟩ ch) (List.mem_of_getElem? (i := 6) rfl) _ _ rfl

theorem requests_owned_iff_readBehindRediscovery :
    ∃ s : System Unit Unit, Run (ofPartial (step CBUUID.uuidString fun _ _ app => some app))
        { app := () } readBehindRediscovery s ∧
      ((∀ pre post t, readBehindRediscovery = pre ++ post →
          Run (ofPartial (step CBUUID.uuidString fun _ _ app => some app)) { app := () } pre t →
            t.Owned ∧ t.RequestsOwned) ↔ Throughout OnePeripheral readBehindRediscovery) := by
  have hrun : Run (ofPartial (step CBUUID.uuidString fun _ _ app => some app))
      ({ app := () } : System Unit Unit) readBehindRediscovery _ := Run.of_foldlM rfl
  exact ⟨_, hrun, requests_owned_iff hrun⟩

/-! ## The published state -/

/-- The published state says that there is a link, or will be one soon. -/
def Live (s : System κ α) : Prop :=
  s.manager.state = .connecting ∨ s.manager.state = .connected

/-- CoreBluetooth reports discoveries, connections and characteristics only while the central is
powered on. -/
def WhilePoweredOn (s : System κ α) : Event κ → Prop
  | .didDiscover _ | .didConnect _ | .didDiscoverCharacteristicsFor .. =>
    s.centralState = .poweredOn
  | _ => True

/-- The central has reported `poweredOff`, and no peripheral was discovered since. -/
def offSince (es : List (Event κ)) : Bool :=
  es.foldl (fun off e => match e with
    | .centralManagerDidUpdateState .poweredOff => true
    | .didDiscover _ => false
    | _ => off) false

/-- Once a peripheral was discovered, the central reports nothing but `poweredOn`. -/
def StaysOn (es : List (Event κ)) : Event κ → Prop
  | .centralManagerDidUpdateState state => (∃ p, .didDiscover p ∈ es) → state = .poweredOn
  | _ => True

theorem manager_centralManagerDidUpdateState (s : System κ α) (state : CBManagerState) :
    (s.centralManagerDidUpdateState state).manager = s.manager := by
  cases state <;> rfl

theorem centralState_centralManagerDidUpdateState (s : System κ α) (state : CBManagerState) :
    (s.centralManagerDidUpdateState state).centralState = state := by
  cases state <;> rfl

theorem delegates_centralManagerDidUpdateState (s : System κ α) (state : CBManagerState) :
    (s.centralManagerDidUpdateState state).delegates = s.delegates := by
  cases state <;> rfl

/-- The loop over discovered characteristics leaves the published state alone. -/
theorem link_addCharacteristics (p : CBPeripheral) (chs : List CBCharacteristic)
    (s : System κ α) :
    (chs.foldl (fun s ch => s.addCharacteristic p ch) s).manager.state = s.manager.state ∧
      (chs.foldl (fun s ch => s.addCharacteristic p ch) s).centralState = s.centralState := by
  refine ⟨foldl_addCharacteristic (·.manager.state) (fun u ch => ?_) chs s,
    foldl_addCharacteristic (·.centralState) (fun u ch => ?_) chs s⟩
  · obtain ⟨log, hu⟩ := addCharacteristic_frame u p ch
    rw [hu]
  · obtain ⟨log, hu⟩ := addCharacteristic_frame u p ch
    rw [hu]

theorem SameLink.live_iff (h : SameLink s t) : t.Live ↔ s.Live := by
  rw [Live, h.state, Live]

/-- A link is published from the first discovery on, and nobody is a delegate before. -/
structure Announced (es : List (Event κ)) (s : System κ α) : Prop where
  live_iff : s.Live ↔ ∃ p, .didDiscover p ∈ es
  delegates : s.delegates ≠ [] → ∃ p, .didDiscover p ∈ es

/-- The published state is not stale: a link is published only while the central is powered on,
and behind a report of `poweredOff` only of a peripheral discovered later. -/
def Fresh (es : List (Event κ)) (s : System κ α) : Prop :=
  (s.Live → s.centralState = .poweredOn) ∧ (offSince es = true → ¬ s.Live)

theorem offSince_snoc (es : List (Event κ)) (e : Event κ) :
    offSince (es ++ [e]) = match e with
      | .centralManagerDidUpdateState .poweredOff => true
      | .didDiscover _ => false
      | _ => offSince es := by
  rw [offSince, List.foldl_append, List.foldl_cons, List.foldl_nil, ← offSince]

theorem discovered_snoc {es : List (Event κ)} (he : ∀ p, e ≠ .didDiscover p) :
    (∃ p, .didDiscover p ∈ es ++ [e]) ↔ ∃ p, .didDiscover p ∈ es := by
  refine exists_congr fun p => ?_
  rw [List.mem_append, List.mem_singleton, or_iff_left fun h => he p h.symm]

theorem announced_step {es : List (Event κ)} (hs : Announced es s)
    (h : s.step describe invoke e = some t) : Announced (es ++ [e]) t := by
  rcases link_cases h with ⟨hsame, he⟩ | ⟨state, rfl, rfl⟩ | ⟨p, rfl, rfl⟩ |
    ⟨p, cs, rfl, hp, -, rfl⟩
  · have hne : ∀ p, e ≠ .didDiscover p := by
      rintro p rfl
      cases he
    refine ⟨?_, ?_⟩
    · rw [hsame.live_iff, discovered_snoc hne, hs.live_iff]
    · rw [hsame.delegates, discovered_snoc hne]
      exact hs.delegates
  · refine ⟨?_, ?_⟩
    · rw [Live, manager_centralManagerDidUpdateState, discovered_snoc (by simp), ← hs.live_iff,
        Live]
    · rw [delegates_centralManagerDidUpdateState, discovered_snoc (by simp)]
      exact hs.delegates
  · have hdiscovered : ∃ q, (.didDiscover q : Event κ) ∈ es ++ [.didDiscover p] :=
      ⟨p, List.mem_append_right _ (List.mem_singleton_self _)⟩
    exact ⟨iff_of_true (.inl rfl) hdiscovered, fun _ => hdiscovered⟩
  · have hdiscovered : ∃ q, (.didDiscover q : Event κ) ∈
        es ++ [.didDiscoverCharacteristicsFor p cs] := by
      rw [discovered_snoc (by simp)]
      exact hs.delegates (List.ne_nil_of_mem hp)
    refine ⟨iff_of_true ?_ hdiscovered, fun _ => hdiscovered⟩
    cases cs with
    | none => exact hs.live_iff.2 (hs.delegates (List.ne_nil_of_mem hp))
    | some chs => exact .inr (link_addCharacteristics p chs _).1

/-- A step keeps the state from being stale exactly where it meets the condition. -/
theorem fresh_step_iff {es : List (Event κ)} (hannounced : Announced es s) (hs : Fresh es s)
    (hon : s.WhilePoweredOn e) (h : s.step describe invoke e = some t) :
    Fresh (es ++ [e]) t ↔ StaysOn es e := by
  rw [Fresh, offSince_snoc]
  rcases link_cases h with ⟨hsame, he⟩ | ⟨state, rfl, rfl⟩ | ⟨p, rfl, rfl⟩ |
    ⟨p, cs, rfl, hp, -, rfl⟩
  · rw [hsame.live_iff, hsame.centralState]
    cases e with
    | centralManagerDidUpdateState state => cases he
    | didDiscover p => cases he
    | didDiscoverCharacteristicsFor p cs => cases he
    | _ => exact iff_of_true hs trivial
  · rw [Live, manager_centralManagerDidUpdateState, ← Live,
      centralState_centralManagerDidUpdateState, StaysOn, ← hannounced.live_iff]
    refine ⟨fun h => h.1, fun h => ⟨h, fun hoff hlive => ?_⟩⟩
    obtain rfl := h hlive
    exact hs.2 hoff hlive
  · exact iff_of_true ⟨fun _ => hon, fun h => (by cases h)⟩ trivial
  · have hlive : s.Live := hannounced.live_iff.2 (hannounced.delegates (List.ne_nil_of_mem hp))
    refine iff_of_true ⟨fun _ => ?_, fun h => (hs.2 h hlive).elim⟩ trivial
    cases cs with
    | none => exact hon
    | some chs => exact (link_addCharacteristics p chs _).2.trans hon

/-- **When the published state is never stale.** Where CoreBluetooth reports discoveries,
connections and characteristics only while powered on: in every state of a run, a link is published
only while the central is powered on, and behind a report of `poweredOff` only of a peripheral
discovered later, exactly where the central reports nothing but `poweredOn` once a peripheral was
discovered. -/
theorem link_state_fresh_iff {app : α} {es : List (Event κ)}
    (h : Run (restrict (ofPartial (step describe invoke)) WhilePoweredOn) { app } es s) :
    (∀ pre post t, es = pre ++ post →
      Run (restrict (ofPartial (step describe invoke)) WhilePoweredOn) { app } pre t →
        (t.Live → t.centralState = .poweredOn) ∧ (offSince pre = true → ¬ t.Live)) ↔
    Throughout StaysOn es := by
  have hd : Deterministic (restrict (ofPartial (step describe invoke)) WhilePoweredOn) :=
    Deterministic.restrict (deterministic_ofPartial _)
  have hnotLive : ¬ ({ app } : System κ α).Live := by
    intro hlive
    cases hlive <;> contradiction
  have hannounced : Announced [] ({ app } : System κ α) :=
    ⟨iff_of_false hnotLive (by simp), fun h => (h rfl).elim⟩
  exact h.forall_reached_iff_throughout (Q := Fresh) hd hannounced
    ⟨fun hlive => (hnotLive hlive).elim, fun _ => hnotLive⟩
    (fun _ _ _ _ hI _ ht _ => announced_step hI ht.1)
    fun _ _ _ _ hI hs ht => fresh_step_iff hI hs ht.2 ht.1

/-- Bluetooth is switched off while the app connects. -/
def switchedOff : List (Event Unit) :=
  [.centralManagerDidUpdateState .poweredOn, .didDiscover ⟨0⟩, .didConnect ⟨0⟩,
    .centralManagerDidUpdateState .poweredOff]

theorem run_switchedOff : ∃ s : System Unit Unit,
    Run (restrict (ofPartial (step CBUUID.uuidString fun _ _ app => some app)) WhilePoweredOn)
      { app := () } switchedOff s ∧ s.manager.state = .connecting ∧
      s.centralState = .poweredOff := by
  let st : System Unit Unit := { app := () }
  let on := st.centralManagerDidUpdateState .poweredOn
  let connecting := (on.didDiscover ⟨0⟩).didConnect
  refine ⟨connecting.centralManagerDidUpdateState .poweredOff, ?_, rfl, rfl⟩
  have hsnoc : ∀ {es s} e t, Run (restrict (ofPartial (step CBUUID.uuidString
      fun _ _ app => some app)) WhilePoweredOn) st es s → (step CBUUID.uuidString
        (fun _ _ app => some app) s e = some t) → s.WhilePoweredOn e →
      Run (restrict (ofPartial (step CBUUID.uuidString fun _ _ app => some app))
        WhilePoweredOn) st (es ++ [e]) t :=
    fun e t h hs hon => h.snoc ⟨hs, hon⟩
  have h := hsnoc (.centralManagerDidUpdateState .poweredOn) on .nil rfl trivial
  have h := hsnoc (.didDiscover ⟨0⟩) (on.didDiscover ⟨0⟩) h rfl rfl
  have h := hsnoc (.didConnect ⟨0⟩) connecting h rfl rfl
  exact hsnoc (.centralManagerDidUpdateState .poweredOff) _ h rfl trivial

/-- The state that is published stays that of a link. -/
theorem link_state_stale :
    ∃ s : System Unit Unit,
      Run (restrict (ofPartial (step CBUUID.uuidString fun _ _ app => some app)) WhilePoweredOn)
        { app := () } switchedOff s ∧ s.Live ∧ s.centralState ≠ .poweredOn ∧
        offSince switchedOff = true := by
  obtain ⟨s, hrun, hstate, hcentral⟩ := run_switchedOff
  exact ⟨s, hrun, .inl hstate, by rw [hcentral]; decide, rfl⟩

theorem link_state_fresh_iff_switchedOff :
    ∃ s : System Unit Unit,
      Run (restrict (ofPartial (step CBUUID.uuidString fun _ _ app => some app)) WhilePoweredOn)
        { app := () } switchedOff s ∧
      ((∀ pre post t, switchedOff = pre ++ post →
        Run (restrict (ofPartial (step CBUUID.uuidString fun _ _ app => some app))
          WhilePoweredOn) { app := () } pre t →
          (t.Live → t.centralState = .poweredOn) ∧ (offSince pre = true → ¬ t.Live)) ↔
      Throughout StaysOn switchedOff) := by
  obtain ⟨s, hrun, -⟩ := run_switchedOff
  exact ⟨s, hrun, link_state_fresh_iff hrun⟩

end System

end Rx7.Bluetooth
