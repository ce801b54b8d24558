import Rx7.Bluetooth.Manager

/-!
# What a step can do

`step_cases` says it once: a step is a call, the return of a closure, a value update, an
acknowledgement, or a `Quiet` step of the connection, which touches none of the closures and none
of the control. `Discovered` is what the connection keeps: a characteristic is found under its own
UUID, and only once a peripheral is connected. Of the methods with loops and guards, lemmas of the
same kind (`callbackReturned_cases` and so on) say what a turn of them can do.
-/

namespace Rx7.Bluetooth.System

open Queues Transition

variable {κ α : Type} {describe : CBUUID → String} {invoke : κ → Option Data → α → Option α}
  {s t : System κ α} {e : Event κ}

/-- A characteristic is found under its own UUID, and only once a peripheral is connected. -/
structure Discovered (s : System κ α) : Prop where
  uuid_eq : ∀ uuid ch, s.manager.characteristicMap uuid = some ch → ch.uuid = uuid
  connected : s.manager.connectedPeripheral = none →
    s.delegates = [] ∧ ∀ uuid, s.manager.characteristicMap uuid = none

theorem Discovered.of_eq (h : s.Discovered)
    (hp : t.manager.connectedPeripheral = s.manager.connectedPeripheral)
    (hm : t.manager.characteristicMap = s.manager.characteristicMap)
    (hd : t.delegates = s.delegates) : t.Discovered := by
  refine ⟨fun uuid ch => ?_, fun hn => ?_⟩
  · rw [hm]
    exact h.uuid_eq uuid ch
  · rw [hm, hd]
    exact h.connected (hp ▸ hn)

/-- What a turn of the loop over discovered characteristics leaves alone, the loop does. -/
theorem foldl_addCharacteristic {β : Type} (f : System κ α → β) {p : CBPeripheral}
    (hf : ∀ (u : System κ α) ch, f (u.addCharacteristic p ch) = f u)
    (chs : List CBCharacteristic) (s : System κ α) :
    f (chs.foldl (fun s ch => s.addCharacteristic p ch) s) = f s := by
  induction chs generalizing s with
  | nil => rfl
  | cons ch chs ih => exact (ih _).trans (hf s ch)

/-- A turn of that loop touches the map and the record of requests only. -/
theorem addCharacteristic_frame (s : System κ α) (p : CBPeripheral) (ch : CBCharacteristic) :
    ∃ log, s.addCharacteristic p ch = { s with
      manager := { s.manager with
        characteristicMap := Function.update s.manager.characteristicMap ch.uuid (some ch) }
      log } := by
  unfold addCharacteristic
  split_ifs
  · exact ⟨_, rfl⟩
  · exact ⟨_, rfl⟩

/-- Only the connection changed: the closures, the control, the values and the rest of the app are
as before, and the record has requests to add at most. -/
structure Quiet (s t : System κ α) : Prop where
  app : t.app = s.app
  listeners : t.manager.listeners = s.manager.listeners
  reads : t.manager.readRequestCallbacks = s.manager.readRequestCallbacks
  writes : t.manager.writeWithResponseRequestCallbacks = s.manager.writeWithResponseRequestCallbacks
  values : t.values = s.values
  unacknowledged : t.unacknowledged = s.unacknowledged
  handler : t.handler = s.handler
  nested : t.nested = s.nested
  log : ∃ requests : List Request, t.log = s.log ++ requests.map .requested
  discovered : s.Discovered → t.Discovered

namespace Quiet

theorem refl (s : System κ α) : Quiet s s :=
  ⟨rfl, rfl, rfl, rfl, rfl, rfl, rfl, rfl, ⟨[], by simp⟩, id⟩

theorem trans {u : System κ α} (h : Quiet s t) (h' : Quiet t u) : Quiet s u := by
  obtain ⟨rs, hr⟩ := h.log
  obtain ⟨rs', hr'⟩ := h'.log
  have hlog : u.log = s.log ++ (rs ++ rs').map .requested := by
    rw [hr', hr, List.map_append, List.append_assoc]
  exact ⟨h'.app.trans h.app, h'.listeners.trans h.listeners, h'.reads.trans h.reads,
    h'.writes.trans h.writes, h'.values.trans h.values,
    h'.unacknowledged.trans h.unacknowledged, h'.handler.trans h.handler,
    h'.nested.trans h.nested, ⟨_, hlog⟩, h'.discovered ∘ h.discovered⟩

theorem record (s : System κ α) (request : Request) : Quiet s (s.record (.requested request)) :=
  ⟨rfl, rfl, rfl, rfl, rfl, rfl, rfl, rfl, ⟨[request], rfl⟩, fun h => h.of_eq rfl rfl rfl⟩

theorem addCharacteristic {s : System κ α} {p : CBPeripheral} (hp : p ∈ s.delegates)
    (c : CBCharacteristic) : Quiet s (s.addCharacteristic p c) := by
  let s' : System κ α := { s with
    manager := { s.manager with
      characteristicMap := Function.update s.manager.characteristicMap c.uuid (some c) } }
  have hmap : Quiet s s' := by
    refine ⟨rfl, rfl, rfl, rfl, rfl, rfl, rfl, rfl, ⟨[], by simp [s']⟩, fun h => ⟨?_, fun hn => ?_⟩⟩
    · intro uuid ch hch
      change Function.update s.manager.characteristicMap c.uuid (some c) uuid = some ch at hch
      rw [Function.update_apply] at hch
      split_ifs at hch with hu
      · rw [hu, ← Option.some.inj hch]
      · exact h.uuid_eq uuid ch hch
    · -- The peripheral is a delegate's, so one is connected.
      rw [(h.connected hn).1] at hp
      exact (List.not_mem_nil hp).elim
  unfold System.addCharacteristic
  split_ifs
  · exact hmap.trans (record s' _)
  · exact hmap

theorem didDiscoverCharacteristicsFor {s : System κ α} {p : CBPeripheral} (hp : p ∈ s.delegates)
    (characteristics : Option (List CBCharacteristic)) :
    Quiet s (s.didDiscoverCharacteristicsFor p characteristics) := by
  rcases characteristics with _ | cs
  · exact refl s
  · have hdelegates : ∀ (u : System κ α) c, (u.addCharacteristic p c).delegates = u.delegates := by
      intro u c
      obtain ⟨log, hu⟩ := addCharacteristic_frame u p c
      rw [hu]
    have hfold : ∀ (cs : List CBCharacteristic) (u : System κ α), p ∈ u.delegates →
        Quiet u (cs.foldl (fun s c => s.addCharacteristic p c) u) := by
      intro cs
      induction cs with
      | nil => exact fun u _ => refl u
      | cons c cs ih =>
        intro u hu
        exact (addCharacteristic hu c).trans (ih _ (by rwa [hdelegates]))
    have hstate : Quiet s { s with manager := { s.manager with state := .connected } } :=
      ⟨rfl, rfl, rfl, rfl, rfl, rfl, rfl, rfl, ⟨[], by simp⟩, fun h => h.of_eq rfl rfl rfl⟩
    exact hstate.trans (hfold cs _ hp)

end Quiet

theorem quiet_didDiscoverServices (s : System κ α) (p : CBPeripheral)
    (services : Option (List CBService)) : Quiet s (s.didDiscoverServices p services) := by
  rcases services with _ | services
  · exact .refl s
  · exact ⟨rfl, rfl, rfl, rfl, rfl, rfl, rfl, rfl,
      ⟨services.map (.discoverCharacteristics p), by simp [didDiscoverServices]⟩,
      fun h => h.of_eq rfl rfl rfl⟩

theorem quiet_didDiscover (s : System κ α) (p : CBPeripheral) : Quiet s (s.didDiscover p) := by
  refine ⟨rfl, rfl, rfl, rfl, rfl, rfl, rfl, rfl, ⟨[.stopScan, .connect p], rfl⟩, fun h => ?_⟩
  exact ⟨h.uuid_eq, fun hn => (Option.some_ne_none _ hn).elim⟩

theorem quiet_didConnect (s : System κ α) : Quiet s s.didConnect := by
  unfold didConnect
  split
  · exact .record s _
  · exact .refl s

theorem quiet_centralManagerDidUpdateState (s : System κ α) (state : CBManagerState) :
    Quiet s (s.centralManagerDidUpdateState state) := by
  let s' : System κ α := { s with centralState := state }
  have hstate : Quiet s s' :=
    ⟨rfl, rfl, rfl, rfl, rfl, rfl, rfl, rfl, ⟨[], by simp [s']⟩, fun h => h.of_eq rfl rfl rfl⟩
  cases state
  case poweredOn => exact hstate.trans (.record s' _)
  all_goals exact hstate

theorem enter_eq_some {closure : κ} {value : Option Data}
    (h : s.enter invoke closure value = some t) :
    ∃ app, invoke closure value s.app = some app ∧ t = { s with app } := by
  obtain ⟨app, happ, rfl⟩ := Option.map_eq_some_iff.1 h
  exact ⟨app, happ, rfl⟩

theorem uuid_of_updatedCharacteristic {uuid : CBUUID} {c : Characteristics}
    (h : updatedCharacteristic uuid = some c) : uuid = c.asCBUUID := by
  unfold updatedCharacteristic at h
  split_ifs at h with h1 h2 h3 h4 h5
  all_goals obtain rfl := Option.some.inj h
  all_goals assumption

/-- The switch of `didUpdateValueFor` finds the characteristic of the UUID, unless it is the one
that it leaves out. -/
theorem updatedCharacteristic_eq_some_iff {c : Characteristics} (hc : c ≠ .shutdown)
    (uuid : CBUUID) : updatedCharacteristic uuid = some c ↔ uuid = c.asCBUUID := by
  refine ⟨uuid_of_updatedCharacteristic, ?_⟩
  rintro rfl
  cases c
  case shutdown => exact (hc rfl).elim
  all_goals simp [updatedCharacteristic, Characteristics.asCBUUID_injective.eq_iff]

/-- A write touches the record of requests and the unacknowledged writes only. -/
theorem writeValue_frame (s : System κ α) (data : Option Data) (c : Characteristics)
    (withResponse : Bool) (handler : Option κ) :
    ∃ (requests : List Request) (unacknowledged : List (PendingWrite κ)),
      s.writeValue data c withResponse handler =
        { s with log := s.log ++ requests.map Occurrence.requested, unacknowledged } := by
  unfold writeValue
  split
  · split_ifs
    · exact ⟨[_], _, rfl⟩
    · exact ⟨[_], _, rfl⟩
  · exact ⟨[], s.unacknowledged, by simp⟩

/-- An acknowledgement calls the earliest handler queued for the characteristic that the printed
UUID is routed to, if there is one. -/
theorem didWriteValueFor_cases {ch : CBCharacteristic} {error : Option Error}
    (h : s.didWriteValueFor describe invoke ch error = some t) :
    (t = s.acknowledge ch error ∧ ∀ c, getCharacteristicByUUID (describe ch.uuid) = some c →
      queue s.manager.writeWithResponseRequestCallbacks c = []) ∨
    (∃ c callback rest, getCharacteristicByUUID (describe ch.uuid) = some c ∧
      s.manager.writeWithResponseRequestCallbacks c = some (callback :: rest) ∧
      (s.acknowledge ch error).callHandler invoke c callback (s.values ch) = some t) := by
  simp only [didWriteValueFor] at h
  split at h
  · rename_i hroute
    exact .inl ⟨(Option.some.inj h).symm, fun c hc => by rw [hroute] at hc; cases hc⟩
  · rename_i c hroute
    split at h
    · rename_i callback rest hqueue
      exact .inr ⟨c, callback, rest, hroute, hqueue, h⟩
    · rename_i hqueue
      refine .inl ⟨(Option.some.inj h).symm, fun c' hc' => ?_⟩
      obtain rfl := Option.some.inj (hroute.symm.trans hc')
      rcases hl : s.manager.writeWithResponseRequestCallbacks c with _ | _ | ⟨callback, rest⟩
      · exact queue_of_none hl
      · exact queue_of_some hl
      · exact (hqueue callback rest hl).elim

/-- The first loop of `handleUpdate` goes over into the second, where the characteristic has read
callbacks. -/
theorem notifyNext_nil_cases {c : Characteristics} {value : Option Data}
    (h : s.notifyNext invoke c value [] = some t) :
    (∃ readCallbacks, s.manager.readRequestCallbacks c = some readCallbacks ∧
      s.answerNext invoke c value readCallbacks = some t) ∨
    (s.manager.readRequestCallbacks c = none ∧ t = { s with handler := none }) := by
  simp only [notifyNext] at h
  split at h
  · rename_i readCallbacks hcallbacks
    exact .inl ⟨readCallbacks, hcallbacks, h⟩
  · rename_i hcallbacks
    exact .inr ⟨hcallbacks, (Option.some.inj h).symm⟩

/-- An update with an error does nothing. Any other is the characteristic's new value, and goes to
the listeners where the switch finds the characteristic. -/
theorem didUpdateValueFor_cases {ch : CBCharacteristic} {value : Option Data}
    {error : Option Error} (h : s.didUpdateValueFor invoke ch value error = some t) :
    (∃ e, error = some e ∧ t = s) ∨
    (error = none ∧ updatedCharacteristic ch.uuid = none ∧
      t = { s with values := Function.update s.values ch value }) ∨
    (∃ c, error = none ∧ updatedCharacteristic ch.uuid = some c ∧
      System.notifyNext invoke { s with values := Function.update s.values ch value } c value
        (queue s.manager.listeners c) = some t) := by
  cases error with
  | some e => exact .inl ⟨e, rfl, (Option.some.inj h).symm⟩
  | none =>
    simp only [didUpdateValueFor, Function.update_self] at h
    split at h
    · rename_i c hc
      exact .inr (.inr ⟨c, rfl, hc, h⟩)
    · rename_i hc
      exact .inr (.inl ⟨rfl, hc, (Option.some.inj h).symm⟩)

theorem finishAcknowledgement_eq {c : Characteristics} (h : s.finishAcknowledgement c = some t) :
    t = { s with
      handler := none
      manager := { s.manager with
        writeWithResponseRequestCallbacks :=
          dequeue s.manager.writeWithResponseRequestCallbacks c } } := by
  unfold finishAcknowledgement at h
  split at h
  · exact (Option.some.inj h).symm
  · cases h

/-- A closure returns to the read that called it, or to the delegate method that did, which goes
on. -/
theorem callbackReturned_cases (h : s.callbackReturned invoke = some t) :
    (∃ nested, s.nested = nested + 1 ∧ t = { s with nested }) ∨
    (∃ c value rest, s.handler = some (.notifying c value rest) ∧
      s.notifyNext invoke c value rest = some t) ∨
    (∃ c value rest, s.handler = some (.answering c value rest) ∧
      s.answerNext invoke c value rest = some t) ∨
    (∃ c, s.handler = some (.acknowledging c) ∧ s.finishAcknowledgement c = some t) := by
  unfold callbackReturned at h
  split at h
  · rename_i _ nested hn
    exact .inl ⟨nested, hn, (Option.some.inj h).symm⟩
  · rename_i c value rest _ hs
    exact .inr (.inl ⟨c, value, rest, hs, h⟩)
  · rename_i c value rest _ hs
    exact .inr (.inr (.inl ⟨c, value, rest, hs, h⟩))
  · rename_i c _ hs
    exact .inr (.inr (.inr ⟨c, hs, h⟩))
  · cases h

theorem react_of_step (h : s.step describe invoke e = some t) :
    s.Enabled e ∧ s.react describe invoke e = some t := by
  unfold step at h
  split_ifs at h with hen
  exact ⟨hen, h⟩

/-- **What a step can do.** -/
theorem step_cases (h : s.step describe invoke e = some t) :
    (∃ call, e = .call call ∧ s.call invoke call = some t) ∨
    (e = .callbackReturned ∧ s.callbackReturned invoke = some t) ∨
    (∃ characteristic value error, e = .didUpdateValueFor characteristic value error ∧ s.Idle ∧
      s.didUpdateValueFor invoke characteristic value error = some t) ∨
    (∃ characteristic error, e = .didWriteValueFor characteristic error ∧ s.Idle ∧
      (s.acknowledgedWrite characteristic.uuid).map (·.characteristic) = some characteristic ∧
      s.didWriteValueFor describe invoke characteristic error = some t) ∨
    (Quiet s t ∧ s.Idle ∧ (∀ c, e ≠ .call c) ∧
      (∀ c value error, e ≠ .didUpdateValueFor c value error) ∧
      ∀ c error, e ≠ .didWriteValueFor c error) := by
  obtain ⟨hen, h⟩ := react_of_step h
  cases e with
  | call c => exact .inl ⟨c, rfl, h⟩
  | callbackReturned => exact .inr (.inl ⟨rfl, h⟩)
  | didUpdateValueFor c v err => exact .inr (.inr (.inl ⟨c, v, err, rfl, hen.1, h⟩))
  | didWriteValueFor c err => exact .inr (.inr (.inr (.inl ⟨c, err, rfl, hen.1, hen.2, h⟩)))
  | centralManagerDidUpdateState state =>
    cases h
    exact .inr (.inr (.inr (.inr
      ⟨quiet_centralManagerDidUpdateState s state, hen, by simp, by simp, by simp⟩)))
  | didDiscover p =>
    cases h
    exact .inr (.inr (.inr (.inr ⟨quiet_didDiscover s p, hen, by simp, by simp, by simp⟩)))
  | didConnect p =>
    cases h
    exact .inr (.inr (.inr (.inr ⟨quiet_didConnect s, hen, by simp, by simp, by simp⟩)))
  | didDisconnect p =>
    cases h
    exact .inr (.inr (.inr (.inr ⟨.refl s, hen, by simp, by simp, by simp⟩)))
  | didDiscoverServices p services =>
    cases h
    exact .inr (.inr (.inr (.inr
      ⟨quiet_didDiscoverServices s p services, hen.1, by simp, by simp, by simp⟩)))
  | didDiscoverCharacteristicsFor p cs =>
    cases h
    exact .inr (.inr (.inr (.inr ⟨.didDiscoverCharacteristicsFor hen.2.1 cs, hen.1,
      by simp, by simp, by simp⟩)))

/-! ## The cached values -/

theorem values_answerNext {c : Characteristics} {value : Option Data} {rest : List κ}
    (h : s.answerNext invoke c value rest = some t) : t.values = s.values := by
  cases rest with
  | nil => exact Option.some.inj h ▸ rfl
  | cons callback rest =>
    obtain ⟨app, -, rfl⟩ := enter_eq_some h
    rfl

theorem values_notifyNext {c : Characteristics} {value : Option Data} {rest : List κ}
    (h : s.notifyNext invoke c value rest = some t) : t.values = s.values := by
  cases rest with
  | nil =>
    rcases notifyNext_nil_cases h with ⟨readCallbacks, -, h⟩ | ⟨-, rfl⟩
    · exact values_answerNext h
    · rfl
  | cons callback rest =>
    obtain ⟨app, -, rfl⟩ := enter_eq_some h
    rfl

theorem values_callbackReturned (h : s.callbackReturned invoke = some t) : t.values = s.values := by
  rcases callbackReturned_cases h with ⟨nested, -, rfl⟩ | ⟨c, value, rest, -, h⟩ |
    ⟨c, value, rest, -, h⟩ | ⟨c, -, h⟩
  · rfl
  · exact values_notifyNext h
  · exact values_answerNext h
  · obtain rfl := finishAcknowledgement_eq h
    rfl

theorem values_call {call : Call κ} (h : s.call invoke call = some t) : t.values = s.values := by
  cases call with
  | read c closure =>
    simp only [System.call, read] at h
    split at h
    · split at h
      · obtain ⟨app, -, rfl⟩ := enter_eq_some h
        rfl
      · exact Option.some.inj h ▸ rfl
    · exact Option.some.inj h ▸ rfl
  | subscribe c closure => exact Option.some.inj h ▸ rfl
  | write data c handler =>
    obtain rfl := Option.some.inj h
    unfold write
    split
    · rfl
    · obtain ⟨_, _, hu⟩ := (s.queueHandler c handler).writeValue_frame data c true (some handler)
      rw [hu]
      rfl
  | writeValue data c withResponse =>
    obtain rfl := Option.some.inj h
    obtain ⟨_, _, hu⟩ := s.writeValue_frame data c withResponse none
    rw [hu]

/-- **The cached values** are those that updates without an error brought. -/
theorem values_step (h : s.step describe invoke e = some t) :
    (∃ ch value, e = .didUpdateValueFor ch value none ∧
      t.values = Function.update s.values ch value) ∨
    (∀ ch value, e ≠ .didUpdateValueFor ch value none) ∧ t.values = s.values := by
  rcases step_cases h with ⟨call, rfl, h⟩ | ⟨rfl, h⟩ | ⟨ch, value, error, rfl, -, h⟩ |
    ⟨ch, error, rfl, -, -, h⟩ | ⟨hquiet, -, -, hupdate, -⟩
  · exact .inr ⟨by simp, values_call h⟩
  · exact .inr ⟨by simp, values_callbackReturned h⟩
  · rcases didUpdateValueFor_cases h with ⟨error, rfl, rfl⟩ | ⟨rfl, -, rfl⟩ | ⟨c, rfl, -, h⟩
    · exact .inr ⟨by simp, rfl⟩
    · exact .inl ⟨ch, value, rfl, rfl⟩
    · exact .inl ⟨ch, value, rfl, values_notifyNext h⟩
  · refine .inr ⟨by simp, ?_⟩
    rcases didWriteValueFor_cases h with ⟨rfl, -⟩ | ⟨c, callback, rest, -, -, h⟩
    · rfl
    · obtain ⟨app, -, rfl⟩ := enter_eq_some h
      rfl
  · exact .inr ⟨fun ch value => hupdate ch value none, hquiet.values⟩

end Rx7.Bluetooth.System
