import Rx7.Bluetooth.Reads
import Rx7.Foundations.Broadcast

/-!
# Listeners

Of each characteristic, the manager is a `Broadcast` to the listeners subscribed to it: the calls
made are those of the record, and those that remain are the closures that the first loop of
`handleUpdate` has still to call. `broadcast_step` shows that every step of the system is a step of
the broadcaster, where an update without error is a broadcast and nothing else delivers a value.
`listeners_see_updates` draws the conclusion for runs.
-/

namespace Rx7.Bluetooth

open Queues Transition Broadcast

/-- The call of a listener of `c`, with its value. -/
@[simp] def Occurrence.listenerCall {κ : Type} (c : Characteristics) :
    Occurrence κ → Option (κ × Option Data)
  | .listenerCalled c' closure value => if c' = c then some (closure, value) else none
  | _ => none

/-- What an event is to the listeners of `c`: a listener is added, a value is sent to all. -/
def Event.notice {κ : Type} (c : Characteristics) : Event κ → Label κ (Option Data)
  | .call (.subscribe c' closure) => if c' = c then .subscribe closure else .internal
  | .didUpdateValueFor characteristic value none =>
    if characteristic.uuid = c.asCBUUID then .update value else .internal
  | _ => .internal

namespace System

variable {κ α : Type} {describe : CBUUID → String} {invoke : κ → Option Data → α → Option α}

/-- The calls of listeners of `c` made so far, in order. -/
def listenerCalls (s : System κ α) (c : Characteristics) : List (κ × Option Data) :=
  s.log.filterMap (Occurrence.listenerCall c)

/-- The calls of listeners of `c` that the loop over them has still to make. -/
def toNotify (s : System κ α) (c : Characteristics) : List (κ × Option Data) :=
  match s.handler with
  | some (.notifying c' value rest) => if c' = c then rest.map fun k => (k, value) else []
  | _ => []

def broadcast (c : Characteristics) (s : System κ α) : Broadcast κ (Option Data) where
  listeners := queue s.manager.listeners c
  calls := s.listenerCalls c
  remaining := s.toNotify c

/-! ## One step -/

section Step

variable {s t : System κ α} {e : Event κ} {c c' : Characteristics} {value : Option Data}

theorem toNotify_of_handler (h : s.handler = none) : s.toNotify c = [] := by
  rw [toNotify, h]

theorem toNotify_of_answering (h : s.answering ≠ none) : s.toNotify c = [] := by
  cases hs : s.handler with
  | none => exact toNotify_of_handler hs
  | some handler =>
    cases handler with
    | notifying c' value rest => rw [answering, hs] at h; exact (h rfl).elim
    | answering c' value rest => rw [toNotify, hs]
    | acknowledging c' => rw [toNotify, hs]

/-- A step that neither adds a listener nor calls one leaves the broadcaster as it is. -/
theorem broadcast_eq_of_frame {os : List (Occurrence κ)}
    (hlisteners : t.manager.listeners = s.manager.listeners) (hlog : t.log = s.log ++ os)
    (hos : ∀ o ∈ os, o.listenerCall c = none) (h : t.toNotify c = s.toNotify c) :
    t.broadcast c = s.broadcast c := by
  rw [broadcast, listenerCalls, hlisteners, hlog, h, List.filterMap_append,
    List.filterMap_eq_nil_iff.2 hos, List.append_nil]
  rfl

theorem step_of_broadcast_eq (h : t.broadcast c = s.broadcast c) :
    Step (s.broadcast c) .internal (t.broadcast c) := h ▸ .stay _

/-- The second loop of `handleUpdate` calls no listener. -/
theorem broadcast_answerNext {rest : List κ} (h : s.answerNext invoke c' value rest = some t)
    (c : Characteristics) :
    t.broadcast c = ⟨queue s.manager.listeners c, s.listenerCalls c, []⟩ := by
  cases rest with
  | nil =>
    obtain rfl := Option.some.inj h
    rfl
  | cons callback rest =>
    obtain ⟨app, -, rfl⟩ := enter_eq_some h
    simp [broadcast, listenerCalls, toNotify, record]

/-- The first loop of `handleUpdate` calls the listeners it has left, some at once and the others
later. -/
theorem broadcast_notifyNext {rest : List κ} (h : s.notifyNext invoke c' value rest = some t)
    (c : Characteristics) : ∃ done later, t.broadcast c =
        ⟨queue s.manager.listeners c, s.listenerCalls c ++ done, later⟩ ∧
      done ++ later = if c' = c then rest.map fun k => (k, value) else [] := by
  cases rest with
  | nil =>
    refine ⟨[], [], ?_, by simp⟩
    rw [List.append_nil]
    rcases notifyNext_nil_cases h with ⟨readCallbacks, -, h⟩ | ⟨-, rfl⟩
    · exact broadcast_answerNext h c
    · rfl
  | cons callback rest =>
    obtain ⟨app, -, rfl⟩ := enter_eq_some h
    by_cases hc : c' = c
    · refine ⟨[(callback, value)], rest.map fun k => (k, value), ?_, by simp [hc]⟩
      simp [broadcast, listenerCalls, toNotify, record, hc]
    · refine ⟨[], [], ?_, by simp [hc]⟩
      simp [broadcast, listenerCalls, toNotify, record, hc]

theorem broadcast_read {closure : κ} (h : s.read invoke c' closure = some t)
    (c : Characteristics) : t.broadcast c = s.broadcast c := by
  rcases read_eq_cases invoke s c' closure with
    ⟨value, -, -, hread⟩ | ⟨-, -, hread⟩ | ⟨-, -, p, ch, hread⟩
  · obtain ⟨app, -, rfl⟩ := enter_eq_some (hread.symm.trans h)
    exact broadcast_eq_of_frame rfl rfl (by simp) rfl
  · obtain rfl := Option.some.inj (hread.symm.trans h)
    rfl
  · obtain rfl := Option.some.inj (hread.symm.trans h)
    exact broadcast_eq_of_frame rfl rfl (by simp) rfl

theorem broadcast_writeValue (s : System κ α) (data : Option Data) (c' : Characteristics)
    (withResponse : Bool) (handler : Option κ) (c : Characteristics) :
    (s.writeValue data c' withResponse handler).broadcast c = s.broadcast c := by
  obtain ⟨requests, unacknowledged, ht⟩ := s.writeValue_frame data c' withResponse handler
  rw [ht]
  exact broadcast_eq_of_frame rfl rfl (by simp) rfl

theorem broadcast_write (s : System κ α) (data : Option Data) (c' : Characteristics) (handler : κ)
    (c : Characteristics) : (s.write data c' handler).broadcast c = s.broadcast c := by
  unfold write
  split
  · rfl
  · rw [broadcast_writeValue]
    exact broadcast_eq_of_frame rfl rfl (by simp) rfl

theorem broadcast_call {call : Call κ} (h : s.call invoke call = some t) (c : Characteristics) :
    Step (s.broadcast c) (Event.notice c (.call call)) (t.broadcast c) := by
  cases call with
  | read c' closure => exact step_of_broadcast_eq (broadcast_read h c)
  | subscribe c' closure =>
    obtain rfl := Option.some.inj h
    by_cases hc : c' = c
    · subst hc
      have ht : (s.subscribe c' closure).broadcast c' =
          ⟨queue s.manager.listeners c' ++ [closure], s.listenerCalls c', s.toNotify c'⟩ := by
        simp only [broadcast, subscribe, queue_enqueue, if_true]
        rfl
      rw [ht, Event.notice, if_pos rfl]
      exact .subscribe _ _ _ closure
    · have ht : (s.subscribe c' closure).broadcast c = s.broadcast c := by
        simp only [broadcast, subscribe, queue_enqueue, if_neg (Ne.symm hc)]
        rfl
      rw [ht, Event.notice, if_neg hc]
      exact .stay _
  | write data c' handler =>
    obtain rfl := Option.some.inj h
    exact step_of_broadcast_eq (broadcast_write s data c' handler c)
  | writeValue data c' withResponse =>
    obtain rfl := Option.some.inj h
    exact step_of_broadcast_eq (broadcast_writeValue s data c' withResponse none c)

theorem broadcast_callbackReturned (h : s.callbackReturned invoke = some t)
    (c : Characteristics) : Step (s.broadcast c) .internal (t.broadcast c) := by
  rcases callbackReturned_cases h with ⟨nested, -, rfl⟩ | ⟨c', value, rest, hs, h⟩ |
    ⟨c', value, rest, hs, h⟩ | ⟨c', hs, h⟩
  · exact .stay _
  · obtain ⟨done, later, ht, hrest⟩ := broadcast_notifyNext h c
    have hbroadcast : s.broadcast c =
        ⟨queue s.manager.listeners c, s.listenerCalls c, done ++ later⟩ := by
      rw [hrest, broadcast, toNotify, hs]
    rw [ht, hbroadcast]
    exact .call _ _ done later
  · refine step_of_broadcast_eq ((broadcast_answerNext h c).trans ?_)
    rw [broadcast, toNotify, hs]
  · obtain rfl := finishAcknowledgement_eq h
    refine step_of_broadcast_eq ?_
    rw [broadcast, broadcast, toNotify_of_handler rfl, toNotify, hs]
    rfl

theorem broadcast_didUpdateValueFor (hc : c ≠ .shutdown) {ch : CBCharacteristic}
    {error : Option Error} (hidle : s.Idle)
    (h : s.didUpdateValueFor invoke ch value error = some t) :
    Step (s.broadcast c) (Event.notice c (.didUpdateValueFor ch value error))
      (t.broadcast c) := by
  have hs : s.broadcast c = ⟨queue s.manager.listeners c, s.listenerCalls c, []⟩ := by
    rw [broadcast, toNotify_of_handler hidle.1]
  rcases didUpdateValueFor_cases h with ⟨e, rfl, rfl⟩ | ⟨rfl, hc', rfl⟩ | ⟨c', rfl, hc', h⟩
  · exact .stay _
  · have huuid : ch.uuid ≠ c.asCBUUID := fun huuid => by
      rw [(updatedCharacteristic_eq_some_iff hc ch.uuid).2 huuid] at hc'
      cases hc'
    rw [Event.notice, if_neg huuid]
    exact .stay _
  · obtain ⟨done, later, ht, hrest⟩ := broadcast_notifyNext h c
    rw [hs, ht, Event.notice]
    by_cases huuid : ch.uuid = c.asCBUUID
    · obtain rfl : c = c' := by
        rw [(updatedCharacteristic_eq_some_iff hc ch.uuid).2 huuid] at hc'
        exact Option.some.inj hc'
      rw [if_pos huuid]
      rw [if_pos rfl] at hrest
      exact .update _ _ done later value hrest
    · have hne : c' ≠ c := by
        rintro rfl
        exact huuid ((updatedCharacteristic_eq_some_iff hc ch.uuid).1 hc')
      rw [if_neg hne] at hrest
      obtain ⟨rfl, rfl⟩ := List.append_eq_nil_iff.1 hrest
      rw [if_neg huuid, List.append_nil]
      exact .stay _

theorem broadcast_didWriteValueFor {ch : CBCharacteristic} {error : Option Error} (hidle : s.Idle)
    (h : s.didWriteValueFor describe invoke ch error = some t) (c : Characteristics) :
    t.broadcast c = s.broadcast c := by
  rcases didWriteValueFor_cases h with ⟨rfl, -⟩ | ⟨c', callback, rest, -, -, ht⟩
  · exact broadcast_eq_of_frame rfl rfl (by simp) rfl
  · obtain ⟨app, -, rfl⟩ := enter_eq_some ht
    refine broadcast_eq_of_frame rfl (List.append_assoc _ _ _) (by simp) ?_
    rw [toNotify_of_handler hidle.1]
    rfl

/-- **Every step of the system is a step of the broadcaster of each characteristic**, for what the
event is to its listeners. -/
theorem broadcast_step (hc : c ≠ .shutdown) (h : s.step describe invoke e = some t) :
    Step (s.broadcast c) (e.notice c) (t.broadcast c) := by
  rcases step_cases h with ⟨call, rfl, h⟩ | ⟨rfl, h⟩ | ⟨ch, value, error, rfl, hidle, h⟩ |
    ⟨ch, error, rfl, hidle, -, h⟩ | ⟨hquiet, -, hcall, hupdate, -⟩
  · exact broadcast_call h c
  · exact broadcast_callbackReturned h c
  · exact broadcast_didUpdateValueFor hc hidle h
  · exact step_of_broadcast_eq (broadcast_didWriteValueFor hidle h c)
  · have hnotice : e.notice c = .internal := by
      unfold Event.notice
      split
      · exact (hcall _ rfl).elim
      · exact (hupdate _ _ _ rfl).elim
      · rfl
    obtain ⟨requests, hlog⟩ := hquiet.log
    rw [hnotice]
    refine step_of_broadcast_eq (broadcast_eq_of_frame hquiet.listeners hlog (by simp) ?_)
    rw [toNotify, hquiet.handler, toNotify]

end Step

/-! ## Runs -/

/-- **The run of the broadcaster of a characteristic.** -/
theorem run_broadcast {app : α} {es : List (Event κ)} {s : System κ α} {c : Characteristics}
    (hc : c ≠ .shutdown) (h : Run (ofPartial (step describe invoke)) { app } es s) :
    Run Step {} (es.map (Event.notice c)) (s.broadcast c) :=
  h.map (f := broadcast c) (I := fun _ => True) trivial (fun _ _ _ _ _ => trivial)
    fun _ _ _ _ hs => broadcast_step hc hs

/-- **Listeners see every update once and in order.** For each characteristic that value updates
are dispatched for, in every run:

* the calls of its listeners, made and to be made by the loop over them, are for each update
  without error that value for each listener subscribed before, in the order of subscription;
* unless that loop is running, they are all made: at idle moments, and before the first read
  callback is called;
* a closure subscribed once is called with the values of the updates behind its subscription. -/
theorem listeners_see_updates {app : α} {es : List (Event κ)} {s : System κ α}
    {c : Characteristics} (hc : c ≠ .shutdown)
    (h : Run (ofPartial (step describe invoke)) { app } es s) :
    s.listenerCalls c ++ s.toNotify c = due [] (es.map (Event.notice c)) ∧
    (s.Idle ∨ s.answering ≠ none → s.toNotify c = []) ∧
    ∀ [DecidableEq κ] pre post k, es = pre ++ .call (.subscribe c k) :: post →
      k ∉ subscribed (pre.map (Event.notice c)) → k ∉ subscribed (post.map (Event.notice c)) →
        valuesOf k (s.listenerCalls c ++ s.toNotify c) = updates (post.map (Event.notice c)) := by
  have hcalls : s.listenerCalls c ++ s.toNotify c = due [] (es.map (Event.notice c)) :=
    (calls_of_run (run_broadcast hc h)).2
  refine ⟨hcalls, fun hs => ?_, fun pre post k hes hpre hpost => ?_⟩
  · exact hs.elim (fun hidle => toNotify_of_handler hidle.1) toNotify_of_answering
  · have hsubscribe : Event.notice c (.call (.subscribe c k)) = .subscribe k := if_pos rfl
    rw [hcalls, hes, List.map_append, List.map_cons, hsubscribe]
    exact valuesOf_due hpre hpost

/-- A listener subscribes another while it is called; then an update fails, and one does not. -/
def subscribeWhileNotified : List (Event Bool) :=
  let peripheral : CBPeripheral := ⟨0⟩
  let characteristic : CBCharacteristic :=
    ⟨peripheral, 0, Characteristics.engineData.asCBUUID, true⟩
  [.didDiscover peripheral, .didConnect peripheral,
    .didDiscoverCharacteristicsFor peripheral (some [characteristic]),
    .call (.subscribe .engineData false),
    .didUpdateValueFor characteristic (some (.ofBytes [218] fun _ => 0)) none,
    .call (.subscribe .engineData true), .callbackReturned,
    .didUpdateValueFor characteristic none (some ⟨"timeout"⟩),
    .didUpdateValueFor characteristic (some (.ofBytes [240] fun _ => 0)) none,
    .callbackReturned, .callbackReturned]

theorem listeners_see_updates_subscribeWhileNotified :
    ∃ s : System Bool Unit, Run (ofPartial (step CBUUID.uuidString fun _ _ app => some app))
        { app := () } subscribeWhileNotified s ∧ s.Idle ∧
      (s.listenerCalls .engineData ++ s.toNotify .engineData =
        due [] (subscribeWhileNotified.map (Event.notice .engineData)) ∧
      (s.Idle ∨ s.answering ≠ none → s.toNotify .engineData = []) ∧
      ∀ [DecidableEq Bool] pre post k,
        subscribeWhileNotified = pre ++ .call (.subscribe .engineData k) :: post →
        k ∉ subscribed (pre.map (Event.notice .engineData)) →
        k ∉ subscribed (post.map (Event.notice .engineData)) →
          valuesOf k (s.listenerCalls .engineData ++ s.toNotify .engineData) =
            updates (post.map (Event.notice .engineData))) := by
  have htest : ((subscribeWhileNotified.foldlM (step CBUUID.uuidString fun _ _ app => some app)
      ({ app := () } : System Bool Unit)).any fun s => decide s.Idle) = true := by decide
  obtain ⟨s, hs, hidle⟩ := Run.exists_of_foldlM htest
  exact ⟨s, hs, of_decide_eq_true hidle, listeners_see_updates (by decide) hs⟩

end System

end Rx7.Bluetooth
