import Rx7.Bluetooth.Reads

/-!
# What closures are called with

The closures that the manager holds, the data it writes and the values that updates carry come from
outside. A `Contract` says what is asked of them, and `Held` that what the manager holds meets it.
Where the event of a step meets the contract, it is held behind the step, and the rest of the app
changes by a call at most that meets it (`Calls`); a read answered at once calls its closure with
the cached value (`held_step`).
-/

namespace Rx7.Bluetooth

open Queues Transition

structure Contract (κ : Type) where
  /-- The listeners and the handlers of writes. -/
  handler : κ → Prop
  read : Characteristics → κ → Prop
  /-- What is written, with the handler queued for it. -/
  written : Data → Option κ → Prop
  /-- The values of updates. -/
  value : Characteristics → Option Data → Prop

namespace Contract

variable {κ : Type} (C : Contract κ)

/-- What an event brings meets the contract. -/
def Meets : Event κ → Prop
  | .call (.read c closure) => C.read c closure
  | .call (.subscribe _ closure) => C.handler closure
  | .call (.write data _ handler) =>
    C.handler handler ∧ C.written (data.getD (.ofBytes [] fun _ => 0)) (some handler)
  | .call (.writeValue data _ _) => C.written (data.getD (.ofBytes [] fun _ => 0)) none
  | .didUpdateValueFor characteristic value none =>
    ∀ c, System.updatedCharacteristic characteristic.uuid = some c → C.value c value
  | _ => True

/-- What a delegate method has still to call meets the contract. -/
def Running : Handler κ → Prop
  | .notifying c value rest => C.value c value ∧ ∀ k ∈ rest, C.handler k
  | .answering c value rest => C.value c value ∧ ∀ k ∈ rest, C.read c k
  | .acknowledging _ => True

end Contract

namespace System

variable {κ α : Type} {describe : CBUUID → String} {invoke : κ → Option Data → α → Option α}
  {C : Contract κ} {s t : System κ α} {e : Event κ} {c : Characteristics} {value : Option Data}

/-- What the manager holds meets the contract. -/
structure Held (C : Contract κ) (s : System κ α) : Prop where
  listeners : ∀ c, ∀ k ∈ queue s.manager.listeners c, C.handler k
  reads : ∀ c, ∀ k ∈ s.queuedReads c, C.read c k
  writes : ∀ c, ∀ k ∈ queue s.manager.writeWithResponseRequestCallbacks c, C.handler k
  unacknowledged : ∀ w ∈ s.unacknowledged, C.written w.data w.handler
  running : ∀ handler ∈ s.handler, C.Running handler

theorem held_of_app (C : Contract κ) (app : α) : Held C ({ app } : System κ α) :=
  ⟨by simp [queue], by simp [queuedReads, queue], by simp [queue], by simp, by simp⟩

/-- While no delegate method is run, nothing is asked of the values of updates. -/
theorem Held.of_idle (hs : s.Held C) (hidle : s.handler = none)
    (value : Characteristics → Option Data → Prop) : s.Held { C with value } :=
  ⟨hs.listeners, hs.reads, hs.writes, hs.unacknowledged, by simp [hidle]⟩

/-- More closures may be given to reads. -/
theorem Held.mono_read (hs : s.Held C) {read : Characteristics → κ → Prop}
    (h : ∀ c k, C.read c k → read c k) : s.Held { C with read } := by
  refine ⟨hs.listeners, fun c k hk => h c k (hs.reads c k hk), hs.writes, hs.unacknowledged,
    fun handler hh => ?_⟩
  have hrunning := hs.running handler hh
  cases handler with
  | notifying c value rest => exact hrunning
  | answering c value rest => exact ⟨hrunning.1, fun k hk => h c k (hrunning.2 k hk)⟩
  | acknowledging c => trivial

theorem Held.of_eq (hs : s.Held C) (hl : t.manager.listeners = s.manager.listeners)
    (hr : t.manager.readRequestCallbacks = s.manager.readRequestCallbacks)
    (hw : t.manager.writeWithResponseRequestCallbacks =
      s.manager.writeWithResponseRequestCallbacks)
    (hu : ∀ w ∈ t.unacknowledged, w ∈ s.unacknowledged)
    (hrunning : ∀ handler ∈ t.handler, C.Running handler) : t.Held C := by
  refine ⟨fun c => ?_, fun c => ?_, fun c => ?_, fun w h => hs.unacknowledged w (hu w h), hrunning⟩
  · rw [hl]
    exact hs.listeners c
  · rw [queuedReads, hr]
    exact hs.reads c
  · rw [hw]
    exact hs.writes c

/-- The rest of the app is as before, or was changed by the call of a closure that meets the
contract, with a value that does. -/
def Calls (invoke : κ → Option Data → α → Option α) (C : Contract κ) (s t : System κ α) : Prop :=
  t.app = s.app ∨ ∃ k value, invoke k value s.app = some t.app ∧
    (C.handler k ∨ ∃ c, C.read c k ∧ C.value c value)

theorem held_queueRead {closure : κ} (hs : s.Held C) (hk : C.read c closure) (p : CBPeripheral)
    (ch : CBCharacteristic) : (s.queueRead p ch c closure).Held C := by
  refine ⟨hs.listeners, fun c' k h => ?_, hs.writes, hs.unacknowledged, hs.running⟩
  rcases mem_queue_enqueue h with h | ⟨rfl, rfl⟩
  · exact hs.reads c' k h
  · exact hk

/-- A read answered at once calls its closure with the cached value; any other calls nothing. -/
theorem held_read {closure : κ} (hs : s.Held C) (hk : C.read c closure)
    (h : s.read invoke c closure = some t) : t.Held C ∧ (s.cachedAnswer c).elim (t.app = s.app)
      fun value => invoke closure (some value) s.app = some t.app := by
  rcases read_eq_cases invoke s c closure with
    ⟨value, hc, -, hread⟩ | ⟨hc, -, hread⟩ | ⟨hc, -, p, ch, hread⟩
  · rw [hread] at h
    obtain ⟨app, happ, rfl⟩ := enter_eq_some h
    rw [hc]
    exact ⟨hs.of_eq rfl rfl rfl (fun _ h => h) hs.running, happ⟩
  · rw [hread] at h
    obtain rfl := Option.some.inj h
    rw [hc]
    exact ⟨hs, rfl⟩
  · rw [hread] at h
    obtain rfl := Option.some.inj h
    rw [hc]
    exact ⟨held_queueRead hs hk p ch, rfl⟩

theorem held_subscribe {closure : κ} (hs : s.Held C) (hk : C.handler closure) :
    (s.subscribe c closure).Held C := by
  refine ⟨fun c' k h => ?_, hs.reads, hs.writes, hs.unacknowledged, hs.running⟩
  rcases mem_queue_enqueue h with h | ⟨-, rfl⟩
  · exact hs.listeners c' k h
  · exact hk

theorem held_writeValue (hs : s.Held C) {data : Option Data} {withResponse : Bool}
    {handler : Option κ} (hd : C.written (data.getD (.ofBytes [] fun _ => 0)) handler) :
    (s.writeValue data c withResponse handler).Held C ∧
      (s.writeValue data c withResponse handler).app = s.app := by
  unfold writeValue
  split
  · split_ifs
    · refine ⟨⟨hs.listeners, hs.reads, hs.writes, fun w hw => ?_, hs.running⟩, rfl⟩
      rcases List.mem_append.1 hw with hw | hw
      · exact hs.unacknowledged w hw
      · obtain rfl := List.mem_singleton.1 hw
        exact hd
    · exact ⟨hs.of_eq rfl rfl rfl (fun _ h => h) hs.running, rfl⟩
  · exact ⟨hs, rfl⟩

theorem held_write (hs : s.Held C) (data : Option Data) (c : Characteristics) {handler : κ}
    (hk : C.handler handler)
    (hd : C.written (data.getD (.ofBytes [] fun _ => 0)) (some handler)) :
    (s.write data c handler).Held C ∧ (s.write data c handler).app = s.app := by
  unfold write
  split
  · exact ⟨hs, rfl⟩
  · have hqueued : (s.queueHandler c handler).Held C := by
      refine ⟨hs.listeners, hs.reads, fun c' k h => ?_, hs.unacknowledged, hs.running⟩
      rcases mem_queue_enqueue h with h | ⟨-, rfl⟩
      · exact hs.writes c' k h
      · exact hk
    exact held_writeValue hqueued hd

theorem held_answerNext {rest : List κ} (hs : s.Held C) (hv : C.value c value)
    (hrest : ∀ k ∈ rest, C.read c k) (h : s.answerNext invoke c value rest = some t) :
    t.Held C ∧ s.Calls invoke C t := by
  cases rest with
  | nil =>
    obtain rfl := Option.some.inj h
    exact ⟨⟨hs.listeners, fun c' k hk => hs.reads c' k (mem_of_mem_queue_clear hk), hs.writes,
      hs.unacknowledged, by simp⟩, .inl rfl⟩
  | cons callback rest =>
    obtain ⟨app, happ, rfl⟩ := enter_eq_some h
    refine ⟨hs.of_eq rfl rfl rfl (fun _ h => h) ?_,
      .inr ⟨callback, value, happ, .inr ⟨c, hrest _ List.mem_cons_self, hv⟩⟩⟩
    rintro handler hh
    obtain rfl := Option.some.inj hh
    exact ⟨hv, fun k hk => hrest k (List.mem_cons_of_mem _ hk)⟩

theorem held_notifyNext {rest : List κ} (hs : s.Held C) (hv : C.value c value)
    (hrest : ∀ k ∈ rest, C.handler k) (h : s.notifyNext invoke c value rest = some t) :
    t.Held C ∧ s.Calls invoke C t := by
  cases rest with
  | nil =>
    rcases notifyNext_nil_cases h with ⟨readCallbacks, hcallbacks, h⟩ | ⟨-, rfl⟩
    · refine held_answerNext hs hv (fun k hk => hs.reads c k ?_) h
      rwa [queuedReads, queue_of_some hcallbacks]
    · exact ⟨hs.of_eq rfl rfl rfl (fun _ h => h) (by simp), .inl rfl⟩
  | cons callback rest =>
    obtain ⟨app, happ, rfl⟩ := enter_eq_some h
    refine ⟨hs.of_eq rfl rfl rfl (fun _ h => h) ?_,
      .inr ⟨callback, value, happ, .inl (hrest _ List.mem_cons_self)⟩⟩
    rintro handler hh
    obtain rfl := Option.some.inj hh
    exact ⟨hv, fun k hk => hrest k (List.mem_cons_of_mem _ hk)⟩

theorem held_callbackReturned (hs : s.Held C) (h : s.callbackReturned invoke = some t) :
    t.Held C ∧ s.Calls invoke C t := by
  rcases callbackReturned_cases h with ⟨nested, -, rfl⟩ | ⟨c, value, rest, hh, h⟩ |
    ⟨c, value, rest, hh, h⟩ | ⟨c, -, h⟩
  · exact ⟨hs.of_eq rfl rfl rfl (fun _ h => h) hs.running, .inl rfl⟩
  · obtain ⟨hv, hrest⟩ := hs.running _ hh
    exact held_notifyNext hs hv hrest h
  · obtain ⟨hv, hrest⟩ := hs.running _ hh
    exact held_answerNext hs hv hrest h
  · obtain rfl := finishAcknowledgement_eq h
    exact ⟨⟨hs.listeners, hs.reads, fun c' k hk => hs.writes c' k (mem_of_mem_queue_dequeue hk),
      hs.unacknowledged, by simp⟩, .inl rfl⟩

theorem held_didUpdateValueFor {ch : CBCharacteristic} {error : Option Error} (hs : s.Held C)
    (he : C.Meets (.didUpdateValueFor ch value error))
    (h : s.didUpdateValueFor invoke ch value error = some t) : t.Held C ∧ s.Calls invoke C t := by
  let s' : System κ α := { s with values := Function.update s.values ch value }
  have hs' : s'.Held C := hs.of_eq rfl rfl rfl (fun _ h => h) hs.running
  rcases didUpdateValueFor_cases h with ⟨e, -, rfl⟩ | ⟨-, -, rfl⟩ | ⟨c, rfl, hc, h⟩
  · exact ⟨hs, .inl rfl⟩
  · exact ⟨hs', .inl rfl⟩
  · exact held_notifyNext (s := s') hs' (he c hc) (hs.listeners c) h

theorem held_didWriteValueFor {ch : CBCharacteristic} {error : Option Error} (hs : s.Held C)
    (h : s.didWriteValueFor describe invoke ch error = some t) :
    t.Held C ∧ s.Calls invoke C t := by
  rcases didWriteValueFor_cases h with ⟨rfl, -⟩ | ⟨c, callback, rest, -, hqueue, h⟩
  · exact ⟨hs.of_eq rfl rfl rfl (fun _ h => List.mem_of_mem_eraseP h) hs.running, .inl rfl⟩
  · obtain ⟨app, happ, rfl⟩ := enter_eq_some h
    have hcallback : callback ∈ queue s.manager.writeWithResponseRequestCallbacks c := by
      rw [queue_of_some hqueue]
      exact List.mem_cons_self
    refine ⟨hs.of_eq rfl rfl rfl (fun _ h => List.mem_of_mem_eraseP h) ?_,
      .inr ⟨callback, _, happ, .inl (hs.writes c callback hcallback)⟩⟩
    rintro handler hh
    obtain rfl := Option.some.inj hh
    trivial

/-- **A step keeps the contract**, and calls closures by it: a read the one it was given, with the
cached value, and any other event one that meets the contract, with a value that does. -/
theorem held_step (hs : s.Held C) (he : C.Meets e) (h : s.step describe invoke e = some t) :
    t.Held C ∧ ((∃ c closure, e = .call (.read c closure) ∧ (s.cachedAnswer c).elim
      (t.app = s.app) fun value => invoke closure (some value) s.app = some t.app) ∨
      (∀ c closure, e ≠ .call (.read c closure)) ∧ s.Calls invoke C t) := by
  rcases step_cases h with ⟨call, rfl, h⟩ | ⟨rfl, h⟩ | ⟨ch, value, error, rfl, -, h⟩ |
    ⟨ch, error, rfl, -, -, h⟩ | ⟨hquiet, -, hcall, -⟩
  · cases call with
    | read c closure =>
      obtain ⟨ht, hcached⟩ := held_read hs he h
      exact ⟨ht, .inl ⟨c, closure, rfl, hcached⟩⟩
    | subscribe c closure =>
      obtain rfl := Option.some.inj h
      exact ⟨held_subscribe hs he, .inr ⟨by simp, .inl rfl⟩⟩
    | write data c handler =>
      obtain rfl := Option.some.inj h
      obtain ⟨ht, happ⟩ := held_write hs data c he.1 he.2
      exact ⟨ht, .inr ⟨by simp, .inl happ⟩⟩
    | writeValue data c withResponse =>
      obtain rfl := Option.some.inj h
      obtain ⟨ht, happ⟩ := held_writeValue hs he
      exact ⟨ht, .inr ⟨by simp, .inl happ⟩⟩
  · obtain ⟨ht, hcalls⟩ := held_callbackReturned hs h
    exact ⟨ht, .inr ⟨by simp, hcalls⟩⟩
  · obtain ⟨ht, hcalls⟩ := held_didUpdateValueFor hs he h
    exact ⟨ht, .inr ⟨by simp, hcalls⟩⟩
  · obtain ⟨ht, hcalls⟩ := held_didWriteValueFor hs h
    exact ⟨ht, .inr ⟨by simp, hcalls⟩⟩
  · have hrunning : ∀ handler ∈ t.handler, C.Running handler := by
      rw [hquiet.handler]
      exact hs.running
    exact ⟨hs.of_eq hquiet.listeners hquiet.reads hquiet.writes
      (fun w hw => hquiet.unacknowledged ▸ hw) hrunning,
      .inr ⟨fun c closure => hcall _, .inl hquiet.app⟩⟩

end System

end Rx7.Bluetooth
