import Rx7.Bluetooth.Frames
import Rx7.Foundations.Outbox

/-!
# Writes and their acknowledgements

Of each characteristic, the manager keeps an `Outbox` of the handlers that writes gave it. A write
is issued to the peripheral and its handler queued; an acknowledgement is to call the handler at
the head of the queue, and is missed where the printed UUID is not routed back to the
characteristic (`routed`). `outbox_step` shows that every step of the system is a step of the
outbox, and `handlers_in_order_iff` draws the conclusion for runs.

Two things are assumed throughout. Every write with response carries a handler (`CarriesHandler`),
and CoreBluetooth prints a spelling of the UUIDs of the characteristics (`hread`).
-/

namespace Rx7.Bluetooth

open Queues Transition

namespace Occurrence

variable {κ : Type} (c : Characteristics)

/-- The handler that a write of `c` was accepted with. -/
@[simp] def issuedWrite : Occurrence κ → Option κ
  | .writeAccepted c' handler => if c' = c then some handler else none
  | _ => none

/-- The handler of `c` that was called. -/
@[simp] def completedWrite : Occurrence κ → Option κ
  | .handlerCalled c' handler _ => if c' = c then some handler else none
  | _ => none

/-- An acknowledgement of a write of `c`. -/
@[simp] def acknowledges : Occurrence κ → Bool
  | .acknowledged characteristic _ => characteristic.uuid = c.asCBUUID
  | _ => false

theorem writing_of_ofWrite_eq_false {c : Characteristics} {o : Occurrence κ}
    (h : o.ofWrite = false) :
    o.issuedWrite c = none ∧ o.completedWrite c = none ∧ o.acknowledges c = false := by
  cases o <;> simp_all

end Occurrence

namespace Event

variable {κ : Type}

/-- A write with response carries a handler. -/
def CarriesHandler : Event κ → Prop
  | .call (.writeValue _ _ withResponse) => withResponse = false
  | _ => True

/-- The handler that an event gives to a write, with the characteristic. -/
def givenWrite : Event κ → Option (Characteristics × κ)
  | .call (.write _ c handler) => some (c, handler)
  | _ => none

/-- The closures that an event gives to the two sides meet `R` and `W`. -/
structure Gives (R : κ → Prop) (W : Characteristics → κ → Prop) (e : Event κ) : Prop where
  read : ∀ k ∈ e.givenRead, R k
  write : ∀ c k, e.givenWrite = some (c, k) → W c k

theorem Gives.mono {R : κ → Prop} {W W' : Characteristics → κ → Prop} {e : Event κ}
    (h : e.Gives R W) (hW : ∀ c k, W c k → W' c k) : e.Gives R W' :=
  ⟨h.read, fun c k hk => hW c k (h.write c k hk)⟩

/-- The event is an acknowledgement of a write of `c`. -/
def Acknowledges (c : Characteristics) : Event κ → Prop
  | .didWriteValueFor characteristic _ => characteristic.uuid = c.asCBUUID
  | _ => False

end Event

/-- Whether an acknowledgement of `c` is routed back to `c` by the printed UUID. -/
def routed (describe : CBUUID → String) (c : Characteristics) : Bool :=
  getCharacteristicByUUID (describe c.asCBUUID) = some c

/-- The upper-case form of a UUID is routed nowhere. -/
theorem routed_of_uuidString {describe : CBUUID → String} {c : Characteristics}
    (h : describe c.asCBUUID = c.asCBUUID.uuidString) : routed describe c = false := by
  simp [routed, h, getCharacteristicByUUID_uuidString]

/-- Whether an event acknowledges a write of `c`, and whether it is then routed back to `c`. -/
def acknowledgementOf {κ : Type} (describe : CBUUID → String) (c : Characteristics) :
    Event κ → Option Bool
  | .didWriteValueFor characteristic _ =>
    if characteristic.uuid = c.asCBUUID then some (routed describe c) else none
  | _ => none

namespace System

variable {κ α : Type} {describe : CBUUID → String} {invoke : κ → Option Data → α → Option α}

/-- The handlers of the accepted writes of `c`, in order. -/
def handlerWrites (s : System κ α) (c : Characteristics) : List κ :=
  s.log.filterMap (Occurrence.issuedWrite c)

/-- The handlers of `c` that were called, in order. -/
def completedHandlers (s : System κ α) (c : Characteristics) : List κ :=
  s.log.filterMap (Occurrence.completedWrite c)

/-- The number of acknowledgements of `c` so far. -/
def acknowledgements (s : System κ α) (c : Characteristics) : ℕ :=
  s.log.countP (Occurrence.acknowledges c)

/-- The handlers of `c` in `writeWithResponseRequestCallbacks`. -/
def pendingHandlers (s : System κ α) (c : Characteristics) : List κ :=
  queue s.manager.writeWithResponseRequestCallbacks c

/-- The handlers of the unacknowledged writes of `c`, in order. -/
def unacknowledgedHandlers (s : System κ α) (c : Characteristics) : List κ :=
  (s.unacknowledged.filter fun w => w.characteristic.uuid = c.asCBUUID).filterMap (·.handler)

/-- The handlers of `c` still to be called: the one being run is removed only behind it. -/
def waitingHandlers (s : System κ α) (c : Characteristics) : List κ :=
  if s.Acknowledging c then (s.pendingHandlers c).tail else s.pendingHandlers c

def outbox (c : Characteristics) (s : System κ α) : Outbox κ where
  issued := s.handlerWrites c
  inFlight := s.unacknowledgedHandlers c
  waiting := s.waitingHandlers c
  completed := s.completedHandlers c
  acknowledged := s.acknowledgements c

/-- What the steps keep of the writes, where every write with response carries a handler, the
closures given to the reading side meet `R` and the handlers given to writes meet `W`. -/
structure Accounted (R : κ → Prop) (W : Characteristics → κ → Prop) (s : System κ α) : Prop where
  discovered : s.Discovered
  holds : s.Holds R
  pending : ∀ c, ∀ k ∈ s.pendingHandlers c, W c k
  handled : ∀ w ∈ s.unacknowledged, ∃ c k, w.characteristic.uuid = c.asCBUUID ∧
    w.handler = some k ∧ W c k
  acknowledging : ∀ c, s.Acknowledging c → s.pendingHandlers c ≠ []

theorem accounted_of_app (R : κ → Prop) (W : Characteristics → κ → Prop) (app : α) :
    Accounted R W ({ app } : System κ α) := by
  refine ⟨⟨by simp, fun _ => ⟨rfl, fun _ => rfl⟩⟩, holds_of_app R app, ?_, ?_, ?_⟩
  · simp [pendingHandlers, queue]
  · simp
  · simp [Acknowledging]

/-! ## One step -/

section

variable {R : κ → Prop} {W : Characteristics → κ → Prop} {s t : System κ α} {e : Event κ}
  {c c' : Characteristics}

/-- A write of an undiscovered characteristic is dropped; any other is issued to the peripheral,
with its handler queued. -/
theorem write_cases (hs : s.Discovered) (data : Option Data) (c : Characteristics) (handler : κ) :
    (s.manager.characteristicMap c.asCBUUID = none ∧ s.write data c handler = s) ∨
    ∃ characteristic request, s.manager.characteristicMap c.asCBUUID = some characteristic ∧
      characteristic.uuid = c.asCBUUID ∧
      s.write data c handler = { s.queueHandler c handler with
        log := s.log ++ [.writeAccepted c handler, .requested request]
        unacknowledged := s.unacknowledged ++
          [⟨characteristic, data.getD (.ofBytes [] fun _ => 0), some handler⟩] } := by
  unfold write
  split
  · rename_i hch
    exact .inl ⟨hch, rfl⟩
  · rename_i ch hch
    obtain ⟨p, hp⟩ : ∃ p, s.manager.connectedPeripheral = some p := by
      refine Option.ne_none_iff_exists'.1 fun hn => ?_
      rw [(hs.connected hn).2] at hch
      cases hch
    have hp' : (s.queueHandler c handler).manager.connectedPeripheral = some p := hp
    have hch' : (s.queueHandler c handler).manager.characteristicMap c.asCBUUID = some ch := hch
    refine .inr ⟨ch, .writeValue p ch (data.getD (.ofBytes [] fun _ => 0)) .withResponse, hch,
      hs.uuid_eq _ _ hch, ?_⟩
    simp only [writeValue, hp', hch', if_true]
    simp only [record, queueHandler, List.append_assoc, List.cons_append, List.nil_append]

theorem app_write (hs : s.Discovered) (data : Option Data) (c : Characteristics) (handler : κ) :
    (s.write data c handler).app = s.app := by
  rcases write_cases hs data c handler with ⟨-, ht⟩ | ⟨ch, request, -, -, ht⟩
  · rw [ht]
  · rw [ht]
    rfl

/-- A write without response leaves no trace but a request. -/
theorem writeValue_withoutResponse (s : System κ α) (data : Option Data) (c : Characteristics) :
    ∃ requests : List Request, s.writeValue data c false none =
      { s with log := s.log ++ requests.map Occurrence.requested } := by
  unfold writeValue
  split
  · exact ⟨[_], rfl⟩
  · exact ⟨[], by simp⟩

theorem pendingHandlers_eq (h : t.manager.writeWithResponseRequestCallbacks =
    s.manager.writeWithResponseRequestCallbacks) : t.pendingHandlers c = s.pendingHandlers c :=
  congrArg (queue · c) h

/-- A handler whose write is issued waits at the end of the queue of its characteristic. -/
theorem pendingHandlers_queueHandler (s : System κ α) (c : Characteristics) (handler : κ)
    (c' : Characteristics) :
    (s.queueHandler c handler).pendingHandlers c' =
      if c' = c then s.pendingHandlers c ++ [handler] else s.pendingHandlers c' :=
  queue_enqueue _ _ _ _

/-- A step that queues no handler and issues no write keeps what there is. -/
theorem Accounted.of_eq (hs : s.Accounted R W) (hdiscovered : t.Discovered) (hholds : t.Holds R)
    (hwrites : t.manager.writeWithResponseRequestCallbacks =
      s.manager.writeWithResponseRequestCallbacks)
    (hunacknowledged : ∀ w ∈ t.unacknowledged, w ∈ s.unacknowledged)
    (hack : ∀ c, t.Acknowledging c → s.pendingHandlers c ≠ []) : t.Accounted R W := by
  refine ⟨hdiscovered, hholds, fun c => ?_, fun w hw => hs.handled w (hunacknowledged w hw),
    fun c hc => ?_⟩
  · rw [pendingHandlers_eq hwrites]
    exact hs.pending c
  · rw [pendingHandlers_eq hwrites]
    exact hack c hc

theorem accounted_write (hs : s.Accounted R W) (data : Option Data) {handler : κ}
    (hk : W c handler) : (s.write data c handler).Accounted R W := by
  rcases write_cases hs.discovered data c handler with ⟨-, ht⟩ | ⟨ch, request, -, huuid, ht⟩
  · rwa [ht]
  · rw [ht]
    refine ⟨hs.discovered.of_eq rfl rfl rfl, ⟨hs.holds.listeners, hs.holds.reads, hs.holds.rest⟩,
      fun c' k hk' => ?_, fun w hw => ?_, fun c' hack => ?_⟩
    · rcases mem_queue_enqueue hk' with hk' | ⟨rfl, rfl⟩
      · exact hs.pending c' k hk'
      · exact hk
    · rcases List.mem_append.1 hw with hw | hw
      · exact hs.handled w hw
      · obtain rfl := List.mem_singleton.1 hw
        exact ⟨c, handler, huuid, rfl, hk⟩
    · have hpending := pendingHandlers_queueHandler s c handler c'
      change (s.queueHandler c handler).pendingHandlers c' ≠ []
      rw [hpending]
      split_ifs
      · simp
      · exact hs.acknowledging c' hack

theorem accounted_finishAcknowledgement (hs : s.Accounted R W)
    (h : s.finishAcknowledgement c = some t) : t.Accounted R W := by
  obtain rfl := finishAcknowledgement_eq h
  exact ⟨hs.discovered.of_eq rfl rfl rfl, ⟨hs.holds.listeners, hs.holds.reads, by simp [rest]⟩,
    fun c' k hk => hs.pending c' k (mem_of_mem_queue_dequeue hk), hs.handled,
    fun c' hc' => by cases hc'⟩

/-- A handler is run while it is at the head of its queue. -/
theorem accounted_didWriteValueFor (hs : s.Accounted R W) {ch : CBCharacteristic}
    {error : Option Error} (h : s.didWriteValueFor describe invoke ch error = some t) :
    t.Accounted R W := by
  have hunacknowledged : ∀ w ∈ (s.acknowledge ch error).unacknowledged, w ∈ s.unacknowledged :=
    fun w hw => List.mem_of_mem_eraseP hw
  rcases didWriteValueFor_cases h with ⟨rfl, -⟩ | ⟨c, callback, rest, -, hqueue, h⟩
  · exact hs.of_eq (hs.discovered.of_eq rfl rfl rfl)
      ⟨hs.holds.listeners, hs.holds.reads, hs.holds.rest⟩ rfl hunacknowledged hs.acknowledging
  · obtain ⟨app, -, rfl⟩ := enter_eq_some h
    refine hs.of_eq (hs.discovered.of_eq rfl rfl rfl)
      ⟨hs.holds.listeners, hs.holds.reads, by simp [System.rest]⟩ rfl hunacknowledged
      fun c' hc' => ?_
    obtain rfl : c = c' := by simpa [Acknowledging] using hc'
    have hpending : s.pendingHandlers c = callback :: rest := queue_of_some hqueue
    rw [hpending]
    exact List.cons_ne_nil _ _

/-- **What every step keeps of the writes.** -/
theorem accounted_step (hs : s.Accounted R W) (he : e.Gives R W) (hc : e.CarriesHandler)
    (h : s.step describe invoke e = some t) : t.Accounted R W := by
  rcases step_sides hs.holds he.read h with ⟨hread, -⟩ | ⟨data, c, handler, rfl, rfl⟩ |
    ⟨data, c, withResponse, rfl, rfl⟩ | ⟨c, rfl, hack, h⟩ | ⟨ch, error, rfl, hidle, hch, h⟩ |
    ⟨hquiet, -⟩
  · exact hs.of_eq
      (hs.discovered.of_eq hread.connectedPeripheral hread.characteristicMap hread.delegates)
      hread.holds hread.writes (fun w hw => hread.unacknowledged ▸ hw)
      fun c hack => hs.acknowledging c ((hread.acknowledging c).1 hack)
  · exact accounted_write hs data (he.write _ _ rfl)
  · obtain rfl : withResponse = false := hc
    obtain ⟨requests, ht⟩ := s.writeValue_withoutResponse data c
    rw [ht]
    exact hs.of_eq (hs.discovered.of_eq rfl rfl rfl)
      ⟨hs.holds.listeners, hs.holds.reads, hs.holds.rest⟩ rfl (fun w hw => hw) hs.acknowledging
  · exact accounted_finishAcknowledgement hs h
  · exact accounted_didWriteValueFor hs h
  · refine hs.of_eq (hquiet.discovered hs.discovered) ⟨?_, ?_, ?_⟩ hquiet.writes
      (fun w hw => hquiet.unacknowledged ▸ hw) fun c hack => ?_
    · exact hquiet.listeners ▸ hs.holds.listeners
    · exact hquiet.reads ▸ hs.holds.reads
    · rw [rest, hquiet.handler]
      exact hs.holds.rest
    · rw [Acknowledging, hquiet.handler] at hack
      exact hs.acknowledging c hack

/-- The outbox behind a step that adds `os` to the record. -/
theorem outbox_eq_of_log {os : List (Occurrence κ)} (h : t.log = s.log ++ os) :
    t.outbox c = ⟨s.handlerWrites c ++ os.filterMap (Occurrence.issuedWrite c),
      t.unacknowledgedHandlers c, t.waitingHandlers c,
      s.completedHandlers c ++ os.filterMap (Occurrence.completedWrite c),
      s.acknowledgements c + os.countP (Occurrence.acknowledges c)⟩ := by
  rw [outbox, handlerWrites, completedHandlers, acknowledgements, h, List.filterMap_append,
    List.filterMap_append, List.countP_append]
  rfl

theorem outbox_eq_of_frame {os : List (Occurrence κ)} (hlog : t.log = s.log ++ os)
    (hos : ∀ o ∈ os, o.issuedWrite c = none ∧ o.completedWrite c = none ∧ o.acknowledges c = false)
    (hunacknowledged : t.unacknowledgedHandlers c = s.unacknowledgedHandlers c)
    (hwaiting : t.waitingHandlers c = s.waitingHandlers c) : t.outbox c = s.outbox c := by
  rw [outbox_eq_of_log hlog, hunacknowledged, hwaiting,
    List.filterMap_eq_nil_iff.2 fun o ho => (hos o ho).1,
    List.filterMap_eq_nil_iff.2 fun o ho => (hos o ho).2.1,
    List.countP_eq_zero.2 fun o ho => Bool.eq_false_iff.1 (hos o ho).2.2, List.append_nil,
    List.append_nil]
  rfl

theorem acknowledging_congr (h : t.handler = s.handler) :
    t.Acknowledging c ↔ s.Acknowledging c := by
  rw [Acknowledging, h, Acknowledging]

theorem waitingHandlers_congr (hpending : t.pendingHandlers c = s.pendingHandlers c)
    (hack : t.Acknowledging c ↔ s.Acknowledging c) : t.waitingHandlers c = s.waitingHandlers c := by
  simp only [waitingHandlers, hack, hpending]

/-- A handler that is queued waits behind the others, also while the head is being run. -/
theorem waitingHandlers_of_queued (hs : s.Accounted R W) {handler : κ}
    (hhandler : t.handler = s.handler)
    (hpending : t.pendingHandlers c = s.pendingHandlers c ++ [handler]) :
    t.waitingHandlers c = s.waitingHandlers c ++ [handler] := by
  simp only [waitingHandlers, acknowledging_congr hhandler, hpending]
  split_ifs with h
  · exact List.tail_append_of_ne_nil (hs.acknowledging c h)
  · rfl

/-- The handler of a write that is issued is that of an unacknowledged write from then on. -/
theorem unacknowledgedHandlers_write (hs : s.Discovered) (data : Option Data)
    (c' : Characteristics) (handler : κ) (c : Characteristics) :
    (s.write data c' handler).unacknowledgedHandlers c = s.unacknowledgedHandlers c ++
      if c = c' ∧ (s.manager.characteristicMap c'.asCBUUID).isSome then [handler] else [] := by
  rcases write_cases hs data c' handler with ⟨hch, ht⟩ | ⟨ch, request, hch, huuid, ht⟩
  · rw [ht]
    simp [hch]
  · rw [unacknowledgedHandlers, ht, List.filter_append, List.filterMap_append]
    by_cases hc : c = c'
    · simp [unacknowledgedHandlers, hch, hc, huuid]
    · have huuid' : ¬ ch.uuid = c.asCBUUID := fun h =>
        hc (Characteristics.asCBUUID_injective (h.symm.trans huuid))
      simp [unacknowledgedHandlers, hc, huuid']

theorem outbox_write (hs : s.Accounted R W) (data : Option Data) (c' : Characteristics)
    (handler : κ) (c : Characteristics) :
    Outbox.Step (s.outbox c) none ((s.write data c' handler).outbox c) := by
  have hfilter := unacknowledgedHandlers_write hs.discovered data c' handler c
  rcases write_cases hs.discovered data c' handler with ⟨-, ht⟩ | ⟨ch, request, hch, -, ht⟩
  · rw [ht]
    exact .stay _
  · generalize s.write data c' handler = t at ht hfilter ⊢
    have hlog : t.log = s.log ++ [.writeAccepted c' handler, .requested request] := by rw [ht]
    have hpending : t.pendingHandlers c =
        if c = c' then s.pendingHandlers c' ++ [handler] else s.pendingHandlers c := by
      rw [ht]
      exact pendingHandlers_queueHandler s c' handler c
    have hhandler : t.handler = s.handler := by rw [ht]; rfl
    by_cases hc : c = c'
    · subst hc
      rw [if_pos rfl] at hpending
      rw [if_pos ⟨rfl, by simp [hch]⟩] at hfilter
      rw [outbox_eq_of_log hlog, hfilter, waitingHandlers_of_queued hs hhandler hpending]
      simpa [outbox, List.filterMap_cons] using
        Outbox.Step.issue (s.handlerWrites c) (s.unacknowledgedHandlers c) (s.waitingHandlers c)
          (s.completedHandlers c) (s.acknowledgements c) handler
    · rw [if_neg hc] at hpending
      rw [if_neg fun h => hc h.1, List.append_nil] at hfilter
      have houtbox : t.outbox c = s.outbox c := outbox_eq_of_frame hlog (by simp [Ne.symm hc])
        hfilter (waitingHandlers_congr hpending (acknowledging_congr hhandler))
      rw [houtbox]
      exact .stay _

theorem outbox_finishAcknowledgement (h : s.finishAcknowledgement c' = some t)
    (hs : s.Acknowledging c') (c : Characteristics) : t.outbox c = s.outbox c := by
  obtain rfl := finishAcknowledgement_eq h
  have hlog : s.log = s.log ++ [] := (List.append_nil _).symm
  refine outbox_eq_of_frame hlog (by simp) rfl ?_
  rw [waitingHandlers, if_neg (by simp [Acknowledging])]
  by_cases hc : c = c'
  · subst hc
    rw [waitingHandlers, if_pos hs]
    exact queue_dequeue_self _ _
  · have hack : ¬ s.Acknowledging c := fun h =>
      hc (by simpa using Option.some.inj (h.symm.trans hs))
    rw [waitingHandlers, if_neg hack]
    exact queue_dequeue_of_ne _ _ hc

/-- The write acknowledged next is the earliest of its UUID. -/
theorem acknowledgedWrite_split {uuid : CBUUID} {w : PendingWrite κ}
    (hw : s.acknowledgedWrite uuid = some w) :
    w.characteristic.uuid = uuid ∧ ∃ before behind, s.unacknowledged = before ++ w :: behind ∧
      (s.unacknowledged.eraseP fun w => w.characteristic.uuid = uuid) = before ++ behind ∧
      ∀ v ∈ before, ¬ v.characteristic.uuid = uuid := by
  obtain ⟨hp, before, behind, hsplit, hbefore⟩ := List.find?_eq_some_iff_append.1 hw
  have hbefore' : ∀ v ∈ before, ¬ v.characteristic.uuid = uuid := fun v hv => by
    simpa using hbefore v hv
  refine ⟨of_decide_eq_true hp, before, behind, hsplit, ?_, hbefore'⟩
  rw [hsplit, List.eraseP_append_right _ (by simpa using hbefore')]
  exact congrArg (before ++ ·) (List.eraseP_cons_of_pos hp)

/-- The acknowledged write is the earliest of its characteristic, -/
theorem unacknowledgedHandlers_acknowledge (hs : s.Accounted R W) {ch : CBCharacteristic}
    {w : PendingWrite κ} (hw : s.acknowledgedWrite ch.uuid = some w) (error : Option Error)
    (hc : ch.uuid = c.asCBUUID) : ∃ k, w.handler = some k ∧
      s.unacknowledgedHandlers c = k :: (s.acknowledge ch error).unacknowledgedHandlers c := by
  obtain ⟨huuid, before, behind, hsplit, herase, hbefore⟩ := acknowledgedWrite_split hw
  obtain ⟨-, k, -, hk, -⟩ := hs.handled w (by simp [hsplit])
  refine ⟨k, hk, ?_⟩
  have hbefore' : before.filter (fun w => w.characteristic.uuid = c.asCBUUID) = [] :=
    List.filter_eq_nil_iff.2 fun v hv => by simpa [← hc] using hbefore v hv
  have ht : (s.acknowledge ch error).unacknowledged = before ++ behind := herase
  rw [unacknowledgedHandlers, unacknowledgedHandlers, hsplit, ht, List.filter_append,
    List.filter_append, hbefore', List.nil_append, List.nil_append,
    List.filter_cons_of_pos (by simp [huuid, hc]), List.filterMap_cons_some hk]

/-- and those of the other characteristics stay unacknowledged. -/
theorem unacknowledgedHandlers_acknowledge_of_ne {ch : CBCharacteristic} {w : PendingWrite κ}
    (hw : s.acknowledgedWrite ch.uuid = some w) (error : Option Error)
    (hc : ¬ ch.uuid = c.asCBUUID) :
    (s.acknowledge ch error).unacknowledgedHandlers c = s.unacknowledgedHandlers c := by
  obtain ⟨huuid, before, behind, hsplit, herase, -⟩ := acknowledgedWrite_split hw
  have ht : (s.acknowledge ch error).unacknowledged = before ++ behind := herase
  rw [unacknowledgedHandlers, unacknowledgedHandlers, hsplit, ht, List.filter_append,
    List.filter_append, List.filter_cons_of_neg (by simp [huuid, hc])]

theorem waitingHandlers_of_idle (h : s.Idle) : s.waitingHandlers c = s.pendingHandlers c :=
  if_neg (not_acknowledging_of_idle h c)

/-- An acknowledgement that calls no handler. -/
theorem outbox_acknowledge (hs : s.Accounted R W) (hidle : s.Idle) {ch : CBCharacteristic}
    {w : PendingWrite κ} (hw : s.acknowledgedWrite ch.uuid = some w) (error : Option Error)
    (hc : ch.uuid = c.asCBUUID) {taken : Bool} (h : taken = true → s.pendingHandlers c = []) :
    Outbox.Step (s.outbox c) (some taken) ((s.acknowledge ch error).outbox c) := by
  obtain ⟨k, -, hfirst⟩ := unacknowledgedHandlers_acknowledge hs hw error hc
  have hlog : (s.acknowledge ch error).log = s.log ++ [.acknowledged ch error] := rfl
  have hwaiting : (s.acknowledge ch error).waitingHandlers c = s.waitingHandlers c :=
    waitingHandlers_congr rfl .rfl
  rw [outbox_eq_of_log hlog, hwaiting, outbox, hfirst]
  cases taken with
  | true =>
    have hnone : s.waitingHandlers c = [] := (waitingHandlers_of_idle hidle).trans (h rfl)
    simpa [List.filterMap_cons, hc, hnone] using Outbox.Step.idle (s.handlerWrites c)
      ((s.acknowledge ch error).unacknowledgedHandlers c) (s.completedHandlers c)
      (s.acknowledgements c) k
  | false =>
    simpa [List.filterMap_cons, hc] using Outbox.Step.miss (s.handlerWrites c)
      ((s.acknowledge ch error).unacknowledgedHandlers c) (s.waitingHandlers c)
      (s.completedHandlers c) (s.acknowledgements c) k

/-- An acknowledgement that calls the handler at the head of the queue. -/
theorem outbox_callHandler (hs : s.Accounted R W) (hidle : s.Idle) {ch : CBCharacteristic}
    {w : PendingWrite κ} (hw : s.acknowledgedWrite ch.uuid = some w) {error : Option Error}
    {value : Option Data} {callback : κ} {rest : List κ} (hc : ch.uuid = c.asCBUUID)
    (hpending : s.pendingHandlers c = callback :: rest)
    (h : (s.acknowledge ch error).callHandler invoke c callback value = some t) :
    Outbox.Step (s.outbox c) (some true) (t.outbox c) := by
  obtain ⟨k, -, hfirst⟩ := unacknowledgedHandlers_acknowledge hs hw error hc
  obtain ⟨app, -, ht⟩ := enter_eq_some h
  have hlog : t.log = s.log ++ [.acknowledged ch error, .handlerCalled c callback value] := by
    rw [ht]
    exact List.append_assoc _ _ _
  have hunacknowledged : t.unacknowledgedHandlers c =
      (s.acknowledge ch error).unacknowledgedHandlers c := by rw [ht]; rfl
  have hwaiting : t.waitingHandlers c = rest := by
    have hack : t.Acknowledging c := by rw [ht]; rfl
    have hpending' : t.pendingHandlers c = s.pendingHandlers c := by rw [ht]; rfl
    rw [waitingHandlers, if_pos hack, hpending', hpending, List.tail_cons]
  rw [outbox_eq_of_log hlog, hunacknowledged, hwaiting, outbox, hfirst,
    waitingHandlers_of_idle hidle, hpending]
  simpa [List.filterMap_cons, hc] using Outbox.Step.complete (s.handlerWrites c)
    ((s.acknowledge ch error).unacknowledgedHandlers c) rest (s.completedHandlers c)
    (s.acknowledgements c) k callback

/-- An acknowledgement leaves the outboxes of the other characteristics as they are. -/
theorem outbox_didWriteValueFor_of_ne (hidle : s.Idle) {ch : CBCharacteristic}
    {error : Option Error} {w : PendingWrite κ} (hw : s.acknowledgedWrite ch.uuid = some w)
    (hc : ¬ ch.uuid = c.asCBUUID)
    (hroute : ∀ c', getCharacteristicByUUID (describe ch.uuid) = some c' → c' ≠ c)
    (h : s.didWriteValueFor describe invoke ch error = some t) : t.outbox c = s.outbox c := by
  have hunacknowledged := unacknowledgedHandlers_acknowledge_of_ne hw error hc
  rcases didWriteValueFor_cases h with ⟨rfl, -⟩ | ⟨c', callback, rest, hc', hqueue, h⟩
  · have hlog : (s.acknowledge ch error).log = s.log ++ [.acknowledged ch error] := rfl
    exact outbox_eq_of_frame hlog (by simp [hc]) hunacknowledged (waitingHandlers_congr rfl .rfl)
  · have hne : c' ≠ c := hroute c' hc'
    obtain ⟨app, -, ht⟩ := enter_eq_some h
    have hlog : t.log = s.log ++ [.acknowledged ch error,
        .handlerCalled c' callback (s.values ch)] := by
      rw [ht]
      exact List.append_assoc _ _ _
    have hack : t.Acknowledging c ↔ s.Acknowledging c :=
      iff_of_false (by rw [ht]; simpa [Acknowledging] using hne)
        (not_acknowledging_of_idle hidle c)
    refine outbox_eq_of_frame hlog (by simp [hc, hne]) ?_ (waitingHandlers_congr ?_ hack)
    · rw [← hunacknowledged, ht]
      rfl
    · rw [ht]
      rfl

/-- **An acknowledgement takes the earliest request in flight**, and the handler at the head of
the queue where it is routed back to its characteristic. -/
theorem outbox_didWriteValueFor
    (hread : ∀ c : Characteristics, CBUUID.ofString (describe c.asCBUUID) = c.asCBUUID)
    (hs : s.Accounted R W) {ch : CBCharacteristic} {error : Option Error} (hidle : s.Idle)
    (hch : (s.acknowledgedWrite ch.uuid).map (·.characteristic) = some ch)
    (h : s.didWriteValueFor describe invoke ch error = some t) (c : Characteristics) :
    Outbox.Step (s.outbox c) (acknowledgementOf describe c (.didWriteValueFor ch error : Event κ))
      (t.outbox c) := by
  obtain ⟨w, hw, rfl⟩ := Option.map_eq_some_iff.1 hch
  obtain ⟨c₁, hc₁⟩ : ∃ c₁ : Characteristics, w.characteristic.uuid = c₁.asCBUUID := by
    obtain ⟨-, before, behind, hsplit, -⟩ := acknowledgedWrite_split hw
    obtain ⟨c₁, -, hc₁, -⟩ := hs.handled w (by simp [hsplit])
    exact ⟨c₁, hc₁⟩
  -- What the printed UUID is routed to has that UUID.
  have hroute : ∀ c', getCharacteristicByUUID (describe w.characteristic.uuid) = some c' →
      w.characteristic.uuid = c'.asCBUUID := fun c' hc' => by
    rw [asCBUUID_of_getCharacteristicByUUID hc', hc₁, hread]
  by_cases hc : w.characteristic.uuid = c.asCBUUID
  · have hlabel : acknowledgementOf describe c
        (.didWriteValueFor w.characteristic error : Event κ) = some (routed describe c) :=
      if_pos hc
    rw [hlabel]
    rcases didWriteValueFor_cases h with ⟨rfl, hnone⟩ | ⟨c', callback, rest, hc', hqueue, h⟩
    · refine outbox_acknowledge hs hidle hw error hc fun ht => hnone c ?_
      rw [hc]
      exact of_decide_eq_true ht
    · obtain rfl := Characteristics.asCBUUID_injective (hc.symm.trans (hroute c' hc'))
      have hrouted : routed describe c = true := by
        rw [hc] at hc'
        exact decide_eq_true hc'
      rw [hrouted]
      exact outbox_callHandler hs hidle hw hc (queue_of_some hqueue) h
  · have hlabel : acknowledgementOf describe c
        (.didWriteValueFor w.characteristic error : Event κ) = none := if_neg hc
    have houtbox := outbox_didWriteValueFor_of_ne hidle hw hc
      (fun c' hc' he => hc (he ▸ hroute c' hc')) h
    rw [hlabel, houtbox]
    exact .stay _

theorem acknowledgementOf_of_ne (h : ∀ ch error, e ≠ .didWriteValueFor ch error) :
    acknowledgementOf describe c e = none := by
  unfold acknowledgementOf
  split
  · exact (h _ _ rfl).elim
  · rfl

/-- **Every step of the system is a step of the outbox of each characteristic.** -/
theorem outbox_step
    (hread : ∀ c : Characteristics, CBUUID.ofString (describe c.asCBUUID) = c.asCBUUID)
    (hs : s.Accounted R W) (he : e.Gives R W) (hc : e.CarriesHandler)
    (h : s.step describe invoke e = some t) (c : Characteristics) :
    Outbox.Step (s.outbox c) (acknowledgementOf describe c e) (t.outbox c) := by
  have hstay : ∀ {u : System κ α}, u.outbox c = s.outbox c →
      Outbox.Step (s.outbox c) none (u.outbox c) := fun hu => hu ▸ .stay _
  rcases step_sides hs.holds he.read h with ⟨hside, hne⟩ | ⟨data, c', handler, rfl, rfl⟩ |
    ⟨data, c', withResponse, rfl, rfl⟩ | ⟨c', rfl, hack, h⟩ | ⟨ch, error, rfl, hidle, hch, h⟩ |
    ⟨hquiet, hne⟩
  · obtain ⟨os, hlog, hos⟩ := hside.log
    rw [acknowledgementOf_of_ne hne]
    refine hstay (outbox_eq_of_frame hlog
      (fun o ho => Occurrence.writing_of_ofWrite_eq_false (hos o ho)) ?_
      (waitingHandlers_congr (pendingHandlers_eq hside.writes) (hside.acknowledging c)))
    rw [unacknowledgedHandlers, hside.unacknowledged, unacknowledgedHandlers]
  · exact outbox_write hs data c' handler c
  · obtain rfl : withResponse = false := hc
    obtain ⟨requests, ht⟩ := s.writeValue_withoutResponse data c'
    refine hstay ?_
    rw [ht]
    exact outbox_eq_of_frame rfl (by simp) rfl (waitingHandlers_congr rfl .rfl)
  · exact hstay (outbox_finishAcknowledgement h hack c)
  · exact outbox_didWriteValueFor hread hs hidle hch h c
  · obtain ⟨requests, hlog⟩ := hquiet.log
    rw [acknowledgementOf_of_ne hne]
    refine hstay (outbox_eq_of_frame hlog (by simp) ?_
      (waitingHandlers_congr (pendingHandlers_eq hquiet.writes)
        (acknowledging_congr hquiet.handler)))
    rw [unacknowledgedHandlers, hquiet.unacknowledged, unacknowledgedHandlers]

end

/-! ## Runs -/

section

variable {app : α} {es : List (Event κ)} {s : System κ α}

/-- Over a run, each characteristic's part in it is a run of its outbox. -/
theorem outbox_run
    (hread : ∀ c : Characteristics, CBUUID.ofString (describe c.asCBUUID) = c.asCBUUID)
    (h : Run (ofPartial (step describe invoke)) { app } es s) (hes : ∀ e ∈ es, e.CarriesHandler)
    (c : Characteristics) :
    Run Outbox.Step {} (es.map (acknowledgementOf describe c)) (s.outbox c) := by
  refine (h.restrict_events hes).map (f := outbox c)
    (I := Accounted (fun _ => True) fun _ _ => True) (accounted_of_app _ _ app)
    (fun s e t hs ht => ?_) (fun s e t hs ht => ?_)
  · exact accounted_step hs ⟨fun _ _ => trivial, fun _ _ _ => trivial⟩ ht.2 ht.1
  · exact outbox_step hread hs ⟨fun _ _ => trivial, fun _ _ _ => trivial⟩ ht.2 ht.1 c

/-- The handlers keep step with the acknowledgements exactly where each of these is routed back to
its characteristic. -/
theorem outbox_inOrder_iff
    (hread : ∀ c : Characteristics, CBUUID.ofString (describe c.asCBUUID) = c.asCBUUID)
    (h : Run (ofPartial (step describe invoke)) { app } es s) (hes : ∀ e ∈ es, e.CarriesHandler)
    (c : Characteristics) :
    (s.outbox c).InOrder ↔ ∀ e ∈ es, e.Acknowledges c → routed describe c = true := by
  rw [Outbox.inOrder_iff_of_run (outbox_run hread h hes c), List.forall_mem_map]
  refine forall₂_congr fun e _ => ?_
  cases e with
  | didWriteValueFor ch error =>
    by_cases hc : ch.uuid = c.asCBUUID <;>
      simp [acknowledgementOf, Event.Acknowledges, hc]
  | _ => simp [acknowledgementOf, Event.Acknowledges]

/-- **When every acknowledged write completes its own handler, in order.** CoreBluetooth prints
UUIDs in upper case, so that no acknowledgement is routed back to its characteristic: the handlers
keep step with the acknowledgements exactly where there was none. -/
theorem handlers_in_order_iff
    (hdescribe : ∀ c : Characteristics, describe c.asCBUUID = c.asCBUUID.uuidString)
    (h : Run (ofPartial (step describe invoke)) { app } es s) (hes : ∀ e ∈ es, e.CarriesHandler)
    (hidle : s.Idle) (c : Characteristics) :
    (s.completedHandlers c = (s.handlerWrites c).take (s.acknowledgements c) ∧
      s.pendingHandlers c = (s.handlerWrites c).drop (s.acknowledgements c) ∧
      (s.pendingHandlers c).length = (s.unacknowledgedHandlers c).length) ↔
    ∀ e ∈ es, ¬ e.Acknowledges c := by
  have hread : ∀ c : Characteristics, CBUUID.ofString (describe c.asCBUUID) = c.asCBUUID :=
    fun c => by rw [hdescribe, CBUUID.ofString_uuidString]
  have hinOrder := outbox_inOrder_iff hread h hes c
  simp only [Outbox.InOrder, outbox, waitingHandlers_of_idle hidle,
    routed_of_uuidString (hdescribe c)] at hinOrder
  simpa using hinOrder

/-- The layout is written, and the write acknowledged. -/
def writeAndAcknowledge : List (Event Bool) :=
  let peripheral : CBPeripheral := ⟨0⟩
  let characteristic : CBCharacteristic :=
    ⟨peripheral, 0, Characteristics.layoutConfig.asCBUUID, false⟩
  [.didDiscover peripheral, .didConnect peripheral,
    .didDiscoverCharacteristicsFor peripheral (some [characteristic]),
    .call (.write (some (.ofBytes [1, 0, 255, 255, 255] fun _ => 0)) .layoutConfig true),
    .didWriteValueFor characteristic none]

/-- Its handler is not called. -/
theorem handler_missed_after_acknowledgement :
    ∃ s : System Bool Unit, Run (ofPartial (step CBUUID.uuidString fun _ _ app => some app))
        { app := () } writeAndAcknowledge s ∧ (∀ e ∈ writeAndAcknowledge, e.CarriesHandler) ∧
      s.Idle ∧ ¬ (s.completedHandlers .layoutConfig =
        (s.handlerWrites .layoutConfig).take (s.acknowledgements .layoutConfig)) := by
  have htest : ((writeAndAcknowledge.foldlM (step CBUUID.uuidString fun _ _ app => some app)
      ({ app := () } : System Bool Unit)).any fun s =>
        decide (s.Idle ∧ ¬ s.completedHandlers .layoutConfig =
          (s.handlerWrites .layoutConfig).take (s.acknowledgements .layoutConfig))) = true := by
    decide
  obtain ⟨s, hs, hp⟩ := Run.exists_of_foldlM htest
  have hes : ∀ e ∈ writeAndAcknowledge, e.CarriesHandler := by
    simp [writeAndAcknowledge, Event.CarriesHandler]
  exact ⟨s, hs, hes, of_decide_eq_true hp⟩

theorem handlers_in_order_iff_writeAndAcknowledge :
    ∃ s : System Bool Unit, Run (ofPartial (step CBUUID.uuidString fun _ _ app => some app))
        { app := () } writeAndAcknowledge s ∧ ∀ c,
      ((s.completedHandlers c = (s.handlerWrites c).take (s.acknowledgements c) ∧
        s.pendingHandlers c = (s.handlerWrites c).drop (s.acknowledgements c) ∧
        (s.pendingHandlers c).length = (s.unacknowledgedHandlers c).length) ↔
      ∀ e ∈ writeAndAcknowledge, ¬ e.Acknowledges c) := by
  have htest : ((writeAndAcknowledge.foldlM (step CBUUID.uuidString fun _ _ app => some app)
      ({ app := () } : System Bool Unit)).any fun s => decide s.Idle) = true := by decide
  obtain ⟨s, hs, hidle⟩ := Run.exists_of_foldlM htest
  have hes : ∀ e ∈ writeAndAcknowledge, e.CarriesHandler := by
    simp [writeAndAcknowledge, Event.CarriesHandler]
  exact ⟨s, hs, handlers_in_order_iff (fun _ => rfl) hs hes (of_decide_eq_true hidle)⟩

end

end System

end Rx7.Bluetooth
