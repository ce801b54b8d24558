import Rx7.Bluetooth.Reads

/-!
# The closure that a step calls

A step calls one closure at most, and the event and what the manager holds determine which, and
with what (`entered`). The rest of the app changes by that call alone, and an event that can come
fails exactly where the call does (`react_eq`), but for the return of a handler that has none to
remove (`Returns`). Where a characteristic has one listener at most, the first loop of
`handleUpdate` is done when it has called it (`notified_step`).
-/

namespace Rx7.Bluetooth.System

open Queues Transition

variable {κ α : Type} {describe : CBUUID → String} {invoke : κ → Option Data → α → Option α}
  {s t : System κ α} {e : Event κ} {c : Characteristics} {value : Option Data}

/-- The closure that the first loop of `handleUpdate` calls next, or the second behind it. -/
def firstNotified (s : System κ α) (c : Characteristics) (value : Option Data) :
    List κ → Option (κ × Option Data)
  | [] => (s.queuedReads c).head?.map (·, value)
  | callback :: _ => some (callback, value)

/-- The closure that a step calls, with the value that it is called with. -/
def entered (describe : CBUUID → String) (s : System κ α) : Event κ → Option (κ × Option Data)
  | .call (.read c closure) => (s.cachedAnswer c).map fun value => (closure, some value)
  | .callbackReturned =>
    match s.nested, s.handler with
    | 0, some (.notifying c value rest) => s.firstNotified c value rest
    | 0, some (.answering _ value rest) => rest.head?.map (·, value)
    | _, _ => none
  | .didUpdateValueFor characteristic value none =>
    (updatedCharacteristic characteristic.uuid).bind fun c =>
      s.firstNotified c value (queue s.manager.listeners c)
  | .didWriteValueFor characteristic _ =>
    (getCharacteristicByUUID (describe characteristic.uuid)).bind fun c =>
      (queue s.manager.writeWithResponseRequestCallbacks c).head?.map (·, s.values characteristic)
  | _ => none

/-- The rest of the app behind a call, or a trap in it. -/
def appAfter (invoke : κ → Option Data → α → Option α) (app : α)
    (called : Option (κ × Option Data)) : Option α :=
  called.elim (some app) fun call => invoke call.1 call.2 app

/-- Where a closure returns, one is running, and `removeFirst(1)` finds its handler. -/
def Returns (s : System κ α) (e : Event κ) : Prop :=
  e = .callbackReturned → ¬ s.Idle ∧ ∀ c, s.nested = 0 → s.handler = some (.acknowledging c) →
    queue s.manager.writeWithResponseRequestCallbacks c ≠ []

theorem answerNext_eq (s : System κ α) (c : Characteristics) (value : Option Data)
    (rest : List κ) : ∃ u : System κ α, s.answerNext invoke c value rest =
      (appAfter invoke s.app (rest.head?.map (·, value))).map fun app => { u with app } := by
  cases rest with
  | nil =>
    exact ⟨{ s with
      handler := none
      manager := { s.manager with
        readRequestCallbacks := clear s.manager.readRequestCallbacks c } }, rfl⟩
  | cons callback rest => exact ⟨_, rfl⟩

theorem notifyNext_eq (s : System κ α) (c : Characteristics) (value : Option Data)
    (rest : List κ) : ∃ u : System κ α, s.notifyNext invoke c value rest =
      (appAfter invoke s.app (s.firstNotified c value rest)).map fun app => { u with app } := by
  cases rest with
  | nil =>
    cases hcallbacks : s.manager.readRequestCallbacks c with
    | none =>
      refine ⟨{ s with handler := none }, ?_⟩
      rw [notifyNext, hcallbacks, firstNotified, queuedReads, queue_of_none hcallbacks]
      rfl
    | some readCallbacks =>
      rw [notifyNext, hcallbacks, firstNotified, queuedReads, queue_of_some hcallbacks]
      exact s.answerNext_eq c value readCallbacks
  | cons callback rest => exact ⟨_, rfl⟩

theorem read_eq (s : System κ α) (c : Characteristics) (closure : κ) :
    ∃ u : System κ α, s.read invoke c closure = (appAfter invoke s.app
      ((s.cachedAnswer c).map fun value => (closure, some value))).map fun app =>
        { u with app } := by
  rcases read_eq_cases invoke s c closure with
    ⟨value, hc, -, hread⟩ | ⟨hc, -, hread⟩ | ⟨hc, -, p, ch, hread⟩
  · rw [hread, hc]
    exact ⟨_, rfl⟩
  · rw [hread, hc]
    exact ⟨s, rfl⟩
  · rw [hread, hc]
    exact ⟨s.queueRead p ch c closure, rfl⟩

theorem call_eq (s : System κ α) (call : Call κ) : ∃ u : System κ α, s.call invoke call =
    (appAfter invoke s.app (s.entered describe (.call call))).map fun app => { u with app } := by
  cases call with
  | read c closure => exact s.read_eq c closure
  | subscribe c closure => exact ⟨s.subscribe c closure, rfl⟩
  | write data c handler =>
    refine ⟨s.write data c handler, ?_⟩
    have happ : (s.write data c handler).app = s.app := by
      unfold write
      split
      · rfl
      · obtain ⟨_, _, h⟩ := (s.queueHandler c handler).writeValue_frame data c true (some handler)
        rw [h]
        rfl
    show some _ = some { s.write data c handler with app := s.app }
    rw [← happ]
  | writeValue data c withResponse =>
    refine ⟨s.writeValue data c withResponse none, ?_⟩
    have happ : (s.writeValue data c withResponse none).app = s.app := by
      obtain ⟨_, _, h⟩ := s.writeValue_frame data c withResponse none
      rw [h]
    show some _ = some { s.writeValue data c withResponse none with app := s.app }
    rw [← happ]

theorem callbackReturned_eq (hs : s.Returns .callbackReturned) : ∃ u : System κ α,
    s.callbackReturned invoke =
      (appAfter invoke s.app (s.entered describe .callbackReturned)).map fun app =>
        { u with app } := by
  obtain ⟨hbusy, hqueue⟩ := hs rfl
  cases hn : s.nested with
  | succ nested =>
    refine ⟨{ s with nested }, ?_⟩
    simp only [callbackReturned, entered, hn]
    rfl
  | zero =>
    cases hh : s.handler with
    | none => exact absurd ⟨hh, hn⟩ hbusy
    | some handler =>
      cases handler with
      | notifying c value rest =>
        simp only [callbackReturned, entered, hn, hh]
        exact s.notifyNext_eq c value rest
      | answering c value rest =>
        simp only [callbackReturned, entered, hn, hh]
        exact s.answerNext_eq c value rest
      | acknowledging c =>
        simp only [callbackReturned, entered, hn, hh, finishAcknowledgement]
        cases hl : s.manager.writeWithResponseRequestCallbacks c with
        | none => exact absurd (queue_of_none hl) (hqueue c hn hh)
        | some l =>
          cases l with
          | nil => exact absurd (queue_of_some hl) (hqueue c hn hh)
          | cons callback rest =>
            exact ⟨{ s with
              handler := none
              nested := 0
              manager := { s.manager with
                writeWithResponseRequestCallbacks :=
                  dequeue s.manager.writeWithResponseRequestCallbacks c } }, rfl⟩

theorem didWriteValueFor_eq (s : System κ α) (ch : CBCharacteristic) (error : Option Error) :
    ∃ u : System κ α, s.didWriteValueFor describe invoke ch error =
      (appAfter invoke s.app (s.entered describe (.didWriteValueFor ch error))).map fun app =>
        { u with app } := by
  simp only [didWriteValueFor, entered]
  cases hroute : getCharacteristicByUUID (describe ch.uuid) with
  | none => exact ⟨s.acknowledge ch error, rfl⟩
  | some c =>
    cases hl : s.manager.writeWithResponseRequestCallbacks c with
    | none =>
      refine ⟨s.acknowledge ch error, ?_⟩
      have hl' : (s.acknowledge ch error).manager.writeWithResponseRequestCallbacks c = none := hl
      simp only [hl', Option.bind_some, queue_of_none hl]
      rfl
    | some l =>
      have hl' : (s.acknowledge ch error).manager.writeWithResponseRequestCallbacks c = some l := hl
      cases l with
      | nil =>
        refine ⟨s.acknowledge ch error, ?_⟩
        simp only [hl', Option.bind_some, queue_of_some hl]
        rfl
      | cons callback rest =>
        simp only [hl', Option.bind_some, queue_of_some hl]
        exact ⟨_, rfl⟩

theorem didUpdateValueFor_eq (s : System κ α) (ch : CBCharacteristic) (value : Option Data)
    (error : Option Error) : ∃ u : System κ α, s.didUpdateValueFor invoke ch value error =
      (appAfter invoke s.app (s.entered describe (.didUpdateValueFor ch value error))).map
        fun app => { u with app } := by
  cases error with
  | some error => exact ⟨s, rfl⟩
  | none =>
    let u : System κ α := { s with values := Function.update s.values ch value }
    have hvalue : u.values ch = value := Function.update_self _ _ _
    simp only [didUpdateValueFor, entered]
    cases updatedCharacteristic ch.uuid with
    | none => exact ⟨u, rfl⟩
    | some c =>
      show ∃ u' : System κ α, u.handleUpdate invoke c (u.values ch) = _
      rw [hvalue]
      exact u.notifyNext_eq c value (queue s.manager.listeners c)

/-- **An event does what the closure does that it calls**, and beside it what it always does. -/
theorem react_eq (hs : s.Returns e) : ∃ u : System κ α, s.react describe invoke e =
    (appAfter invoke s.app (s.entered describe e)).map fun app => { u with app } := by
  cases e with
  | call call => exact s.call_eq call
  | callbackReturned => exact callbackReturned_eq hs
  | didUpdateValueFor ch value error => exact s.didUpdateValueFor_eq ch value error
  | didWriteValueFor ch error => exact s.didWriteValueFor_eq ch error
  | centralManagerDidUpdateState state =>
    refine ⟨s.centralManagerDidUpdateState state, ?_⟩
    have happ := (quiet_centralManagerDidUpdateState s state).app
    show some _ = some { s.centralManagerDidUpdateState state with app := s.app }
    rw [← happ]
  | didDiscover p => exact ⟨s.didDiscover p, rfl⟩
  | didConnect p =>
    refine ⟨s.didConnect, ?_⟩
    show some _ = some { s.didConnect with app := s.app }
    rw [← (quiet_didConnect s).app]
  | didDisconnect p => exact ⟨s, rfl⟩
  | didDiscoverServices p services =>
    refine ⟨s.didDiscoverServices p services, ?_⟩
    show some _ = some { s.didDiscoverServices p services with app := s.app }
    rw [← (quiet_didDiscoverServices s p services).app]
  | didDiscoverCharacteristicsFor p characteristics =>
    refine ⟨s.didDiscoverCharacteristicsFor p characteristics, ?_⟩
    have happ : (s.didDiscoverCharacteristicsFor p characteristics).app = s.app := by
      cases characteristics with
      | none => rfl
      | some characteristics =>
        refine foldl_addCharacteristic (fun u => u.app) (fun u ch => ?_) characteristics _
        obtain ⟨log, hu⟩ := u.addCharacteristic_frame p ch
        rw [hu]
    show some _ = some { s.didDiscoverCharacteristicsFor p characteristics with app := s.app }
    rw [← happ]

theorem returns_of_step (h : s.step describe invoke e = some t) : s.Returns e := by
  rintro rfl
  have h := (react_of_step h).2
  simp only [react] at h
  refine ⟨fun hidle => ?_, fun c hn hh hqueue => ?_⟩
  · simp only [callbackReturned, hidle.1, hidle.2] at h
    cases h
  · simp only [callbackReturned, hn, hh, finishAcknowledgement] at h
    cases hl : s.manager.writeWithResponseRequestCallbacks c with
    | none =>
      rw [hl] at h
      cases h
    | some l =>
      rw [queue_of_some hl] at hqueue
      rw [hl, hqueue] at h
      cases h

/-- **What a step does to the rest of the app**: it is called, or left as it is. -/
theorem app_of_step (h : s.step describe invoke e = some t) :
    appAfter invoke s.app (s.entered describe e) = some t.app := by
  obtain ⟨u, hu⟩ := react_eq (returns_of_step h)
  obtain ⟨app, happ, rfl⟩ := Option.map_eq_some_iff.1 (hu.symm.trans (react_of_step h).2)
  exact happ

/-- The first loop of `handleUpdate` has no listener left. -/
def Notified (s : System κ α) : Prop :=
  ∀ c value rest, s.handler = some (.notifying c value rest) → rest = []

theorem notified_answerNext {rest : List κ} (h : s.answerNext invoke c value rest = some t) :
    t.manager.listeners = s.manager.listeners ∧ t.Notified := by
  cases rest with
  | nil =>
    obtain rfl := Option.some.inj h
    exact ⟨rfl, fun _ _ _ hh => by cases hh⟩
  | cons callback rest =>
    obtain ⟨app, -, rfl⟩ := enter_eq_some h
    exact ⟨rfl, fun _ _ _ hh => by cases hh⟩

theorem notified_notifyNext {rest : List κ} (hrest : rest.length ≤ 1)
    (h : s.notifyNext invoke c value rest = some t) :
    t.manager.listeners = s.manager.listeners ∧ t.Notified := by
  cases rest with
  | nil =>
    rcases notifyNext_nil_cases h with ⟨readCallbacks, -, h⟩ | ⟨-, rfl⟩
    · exact notified_answerNext h
    · exact ⟨rfl, fun _ _ _ hh => by cases hh⟩
  | cons callback rest =>
    obtain rfl : rest = [] := List.eq_nil_of_length_eq_zero (by simpa using hrest)
    obtain ⟨app, -, rfl⟩ := enter_eq_some h
    refine ⟨rfl, fun _ _ _ hh => ?_⟩
    cases hh
    rfl

theorem notified_call {call : Call κ} (hs : s.Notified) (he : ∀ c k, call ≠ .subscribe c k)
    (h : s.call invoke call = some t) :
    t.manager.listeners = s.manager.listeners ∧ t.Notified := by
  cases call with
  | read c closure =>
    rcases read_eq_cases invoke s c closure with
      ⟨value, -, -, hread⟩ | ⟨-, -, hread⟩ | ⟨-, -, p, ch, hread⟩
    · obtain ⟨app, -, rfl⟩ := enter_eq_some (hread.symm.trans h)
      exact ⟨rfl, hs⟩
    · obtain rfl := Option.some.inj (hread.symm.trans h)
      exact ⟨rfl, hs⟩
    · obtain rfl := Option.some.inj (hread.symm.trans h)
      exact ⟨rfl, hs⟩
  | subscribe c closure => exact absurd rfl (he c closure)
  | write data c handler =>
    obtain rfl := Option.some.inj h
    unfold write
    split
    · exact ⟨rfl, hs⟩
    · obtain ⟨_, _, hu⟩ := (s.queueHandler c handler).writeValue_frame data c true (some handler)
      rw [hu]
      exact ⟨rfl, hs⟩
  | writeValue data c withResponse =>
    obtain rfl := Option.some.inj h
    obtain ⟨_, _, hu⟩ := s.writeValue_frame data c withResponse none
    rw [hu]
    exact ⟨rfl, hs⟩

/-- **A listener that is alone is called at once**, by the update. -/
theorem notified_step (hs : s.Notified) (hone : ∀ c, (queue s.manager.listeners c).length ≤ 1)
    (he : ∀ c k, e ≠ .call (.subscribe c k)) (h : s.step describe invoke e = some t) :
    t.manager.listeners = s.manager.listeners ∧ t.Notified := by
  rcases step_cases h with ⟨call, rfl, h⟩ | ⟨rfl, h⟩ | ⟨ch, value, error, rfl, -, h⟩ |
    ⟨ch, error, rfl, hidle, -, h⟩ | ⟨hquiet, hidle, -⟩
  · exact notified_call hs (fun c k hc => he c k (congrArg _ hc)) h
  · rcases callbackReturned_cases h with ⟨nested, -, rfl⟩ | ⟨c, value, rest, hh, h⟩ |
      ⟨c, value, rest, -, h⟩ | ⟨c, -, h⟩
    · exact ⟨rfl, hs⟩
    · exact notified_notifyNext (by simp [hs c value rest hh]) h
    · exact notified_answerNext h
    · obtain rfl := finishAcknowledgement_eq h
      exact ⟨rfl, fun _ _ _ hh => by cases hh⟩
  · rcases didUpdateValueFor_cases h with ⟨e, -, rfl⟩ | ⟨-, -, rfl⟩ | ⟨c, -, -, h⟩
    · exact ⟨rfl, hs⟩
    · exact ⟨rfl, hs⟩
    · exact notified_notifyNext (s := { s with values := Function.update s.values ch value })
        (hone c) h
  · rcases didWriteValueFor_cases h with ⟨rfl, -⟩ | ⟨c, callback, rest, -, -, h⟩
    · exact ⟨rfl, hs⟩
    · obtain ⟨app, -, rfl⟩ := enter_eq_some h
      exact ⟨rfl, fun _ _ _ hh => by cases hh⟩
  · refine ⟨hquiet.listeners, fun c value rest hh => ?_⟩
    rw [hquiet.handler, hidle.1] at hh
    cases hh

end Rx7.Bluetooth.System
