import Rx7.Bluetooth.Calls
import Rx7.Bluetooth.Writes

/-!
# Closures still to be called

The closures that reads and writes gave wait in the queues of their characteristics. An event that
is not a call adds none, and removes the one that it calls, unless that is a listener
(`waiting_cases`). So a closure that was given once is called once at most.
-/

namespace Rx7.Bluetooth.System

open Queues Transition

variable {κ α : Type} {describe : CBUUID → String} {invoke : κ → Option Data → α → Option α}
  {s t : System κ α} {e : Event κ} {c : Characteristics} {value : Option Data}

/-- The same closures wait. -/
structure SameWaiting (s t : System κ α) : Prop where
  reads : ∀ c, t.pendingReads c = s.pendingReads c
  writes : ∀ c, t.waitingHandlers c = s.waitingHandlers c

/-- The first of the reads of `c` was called. -/
structure TakesRead (c : Characteristics) (k : κ) (s t : System κ α) : Prop where
  reads : s.pendingReads c = k :: t.pendingReads c
  others : ∀ c', c' ≠ c → t.pendingReads c' = s.pendingReads c'
  writes : ∀ c, t.waitingHandlers c = s.waitingHandlers c

/-- The first of the handlers of `c` was called. -/
structure TakesHandler (c : Characteristics) (k : κ) (s t : System κ α) : Prop where
  writes : s.waitingHandlers c = k :: t.waitingHandlers c
  others : ∀ c', c' ≠ c → t.waitingHandlers c' = s.waitingHandlers c'
  reads : ∀ c, t.pendingReads c = s.pendingReads c

/-- The closure that an event calls is a listener. -/
def CallsListener (describe : CBUUID → String) (s : System κ α) (e : Event κ) : Prop :=
  ∀ k value, s.entered describe e = some (k, value) →
    (∃ c, k ∈ queue s.manager.listeners c) ∨
      ∃ c value rest, s.handler = some (.notifying c value rest) ∧ k ∈ rest

/-- While no acknowledgement is handled, before and behind a step, the handlers wait as they do. -/
theorem waitingHandlers_of_not_acknowledging (hs : ¬ s.Acknowledging c) (ht : ¬ t.Acknowledging c)
    (h : t.pendingHandlers c = s.pendingHandlers c) : t.waitingHandlers c = s.waitingHandlers c :=
  waitingHandlers_congr h (iff_of_false ht hs)

theorem waiting_answerNext {rest : List κ} (hrest : s.pendingReads c = rest)
    (hother : ∀ c', c' ≠ c → s.pendingReads c' = s.queuedReads c')
    (hack : ∀ c, ¬ s.Acknowledging c) (h : s.answerNext invoke c value rest = some t) :
    (rest.head? = none ∧ SameWaiting s t) ∨ ∃ k, rest.head? = some k ∧ TakesRead c k s t := by
  cases rest with
  | nil =>
    obtain rfl := Option.some.inj h
    refine .inl ⟨rfl, fun c' => ?_, fun c' => ?_⟩
    · by_cases hc : c' = c
      · subst hc
        rw [hrest]
        exact queue_clear_self _ _
      · rw [hother c' hc]
        exact queue_clear_of_ne _ _ hc
    · exact waitingHandlers_of_not_acknowledging (hack c') (by simp [Acknowledging]) rfl
  | cons callback rest =>
    obtain ⟨app, -, rfl⟩ := enter_eq_some h
    refine .inr ⟨callback, rfl, ?_, fun c' hc => ?_, fun c' => ?_⟩
    · rw [hrest]
      simp [pendingReads]
    · rw [hother c' hc]
      exact if_neg (Ne.symm hc)
    · exact waitingHandlers_of_not_acknowledging (hack c') (by simp [Acknowledging]) rfl

theorem waiting_notifyNext {rest : List κ} (hs : s.answering = none)
    (hack : ∀ c, ¬ s.Acknowledging c) (h : s.notifyNext invoke c value rest = some t) :
    ((rest = [] → (s.queuedReads c).head? = none) ∧ SameWaiting s t) ∨
      ∃ k, rest = [] ∧ (s.queuedReads c).head? = some k ∧ TakesRead c k s t := by
  have hpending : ∀ c, s.pendingReads c = s.queuedReads c := fun c =>
    pendingReads_of_not_answering (by simp [hs])
  cases rest with
  | nil =>
    rcases notifyNext_nil_cases h with ⟨readCallbacks, hcallbacks, h⟩ | ⟨hnone, rfl⟩
    · have hqueue : s.queuedReads c = readCallbacks := queue_of_some hcallbacks
      rw [hqueue]
      rcases waiting_answerNext ((hpending c).trans hqueue) (fun c' _ => hpending c') hack h with
        ⟨hhead, hsame⟩ | ⟨k, hhead, htakes⟩
      · exact .inl ⟨fun _ => hhead, hsame⟩
      · exact .inr ⟨k, rfl, hhead, htakes⟩
    · refine .inl ⟨fun _ => ?_, fun c' => (hpending c').symm, fun c' => ?_⟩
      · rw [queuedReads, queue_of_none hnone, List.head?_nil]
      · exact waitingHandlers_of_not_acknowledging (hack c') (by simp [Acknowledging]) rfl
  | cons callback rest =>
    obtain ⟨app, -, rfl⟩ := enter_eq_some h
    refine .inl ⟨fun hnil => (by cases hnil), fun c' => (hpending c').symm, fun c' => ?_⟩
    exact waitingHandlers_of_not_acknowledging (hack c') (by simp [Acknowledging]) rfl

theorem waiting_callbackReturned (h : s.callbackReturned invoke = some t) :
    (SameWaiting s t ∧ s.CallsListener describe .callbackReturned) ∨
    ∃ c k value, s.entered describe .callbackReturned = some (k, value) ∧ TakesRead c k s t := by
  cases hn : s.nested with
  | succ nested =>
    simp only [callbackReturned, hn] at h
    obtain rfl := Option.some.inj h
    refine .inl ⟨⟨fun _ => rfl, fun _ => rfl⟩, fun k value hk => ?_⟩
    simp only [entered, hn] at hk
    cases hk
  | zero =>
    cases hh : s.handler with
    | none =>
      simp only [callbackReturned, hn, hh] at h
      cases h
    | some handler =>
      cases handler with
      | notifying c value rest =>
        have hentered : s.entered describe .callbackReturned = s.firstNotified c value rest := by
          simp only [entered, hn, hh]
        simp only [callbackReturned, hn, hh] at h
        rcases waiting_notifyNext (by rw [answering, hh]) (by simp [Acknowledging, hh]) h with
          ⟨hhead, hsame⟩ | ⟨k, rfl, hhead, htakes⟩
        · refine .inl ⟨hsame, fun k v hk => .inr ⟨c, value, rest, hh, ?_⟩⟩
          rw [hentered] at hk
          cases rest with
          | nil =>
            rw [firstNotified, hhead rfl] at hk
            cases hk
          | cons callback rest =>
            cases hk
            exact List.mem_cons_self
        · refine .inr ⟨c, k, value, ?_, htakes⟩
          rw [hentered, firstNotified, hhead]
          rfl
      | answering c value rest =>
        have hentered : s.entered describe .callbackReturned = rest.head?.map (·, value) := by
          simp only [entered, hn, hh]
        simp only [callbackReturned, hn, hh] at h
        have hother : ∀ c', c' ≠ c → s.pendingReads c' = s.queuedReads c' := fun c' hc =>
          pendingReads_of_not_answering fun ha => hc (by simpa [answering, hh] using ha.symm)
        have hrest : s.pendingReads c = rest := by
          rw [pendingReads, hh]
          exact if_pos rfl
        rcases waiting_answerNext hrest hother (by simp [Acknowledging, hh]) h with
          ⟨hhead, hsame⟩ | ⟨k, hhead, htakes⟩
        · refine .inl ⟨hsame, fun k v hk => ?_⟩
          rw [hentered, hhead] at hk
          cases hk
        · refine .inr ⟨c, k, value, ?_, htakes⟩
          rw [hentered, hhead]
          rfl
      | acknowledging c =>
        have hentered : s.entered describe .callbackReturned = none := by
          simp only [entered, hn, hh]
        simp only [callbackReturned, hn, hh] at h
        have hs : s.answering = none := by rw [answering, hh]
        refine .inl ⟨⟨fun c' => ?_, fun c' => ?_⟩, fun k v hk => ?_⟩
        · exact congrArg Ledger.pending (ledger_finishAcknowledgement h hs c')
        · exact congrArg Outbox.waiting (outbox_finishAcknowledgement h hh c')
        · rw [hentered] at hk
          cases hk

theorem waiting_didUpdateValueFor (hidle : s.Idle) {ch : CBCharacteristic} {error : Option Error}
    (h : s.didUpdateValueFor invoke ch value error = some t) :
    (SameWaiting s t ∧ s.CallsListener describe (.didUpdateValueFor ch value error)) ∨
    ∃ c k v, s.entered describe (.didUpdateValueFor ch value error) = some (k, v) ∧
      TakesRead c k s t := by
  rcases didUpdateValueFor_cases h with ⟨e, rfl, rfl⟩ | ⟨rfl, hc, rfl⟩ | ⟨c, rfl, hc, h⟩
  · exact .inl ⟨⟨fun _ => rfl, fun _ => rfl⟩, fun k v hk => (by cases hk)⟩
  · refine .inl ⟨⟨fun _ => rfl, fun _ => rfl⟩, fun k v hk => ?_⟩
    rw [entered, hc] at hk
    cases hk
  · have hentered : s.entered describe (.didUpdateValueFor ch value none) =
        s.firstNotified c value (queue s.manager.listeners c) := by
      rw [entered, hc]
      rfl
    rcases waiting_notifyNext (s := { s with values := Function.update s.values ch value })
      (answering_of_idle hidle) (not_acknowledging_of_idle hidle) h with
      ⟨hhead, hsame⟩ | ⟨k, hnone, hhead, htakes⟩
    · refine .inl ⟨⟨hsame.reads, hsame.writes⟩, fun k v hk => .inl ⟨c, ?_⟩⟩
      rw [hentered] at hk
      cases hqueue : queue s.manager.listeners c with
      | nil =>
        rw [hqueue, firstNotified, show (s.queuedReads c).head? = none from hhead hqueue] at hk
        cases hk
      | cons callback rest =>
        rw [hqueue] at hk
        cases hk
        exact List.mem_cons_self
    · refine .inr ⟨c, k, value, ?_, htakes.reads, htakes.others, htakes.writes⟩
      rw [hentered, hnone, firstNotified, show (s.queuedReads c).head? = some k from hhead]
      rfl

theorem waiting_didWriteValueFor (hidle : s.Idle) {ch : CBCharacteristic} {error : Option Error}
    (h : s.didWriteValueFor describe invoke ch error = some t) :
    (SameWaiting s t ∧ s.CallsListener describe (.didWriteValueFor ch error)) ∨
    ∃ c k v, s.entered describe (.didWriteValueFor ch error) = some (k, v) ∧
      TakesHandler c k s t := by
  rcases didWriteValueFor_cases h with ⟨rfl, hnone⟩ | ⟨c, callback, rest, hc, hqueue, hcalled⟩
  · refine .inl ⟨⟨fun _ => rfl, fun _ => rfl⟩, fun k v hk => ?_⟩
    obtain ⟨c, hc, hk⟩ := Option.bind_eq_some_iff.1 hk
    rw [hnone c hc] at hk
    cases hk
  · obtain ⟨app, -, ht⟩ := enter_eq_some hcalled
    have hpending : s.pendingHandlers c = callback :: rest := queue_of_some hqueue
    have hpending' : ∀ c', t.pendingHandlers c' = s.pendingHandlers c' := fun c' => by rw [ht]; rfl
    have hack : ∀ c', t.Acknowledging c' ↔ c = c' := fun c' => by
      rw [ht]
      exact ⟨fun h => by simpa using Option.some.inj h, fun h => by rw [h]; rfl⟩
    refine .inr ⟨c, callback, s.values ch, ?_, ?_, fun c' hc' => ?_, fun c' => ?_⟩
    · rw [entered, hc, Option.bind_some, queue_of_some hqueue]
      rfl
    · rw [waitingHandlers_of_idle hidle, waitingHandlers, if_pos ((hack c).2 rfl), hpending',
        hpending, List.tail_cons]
    · exact waitingHandlers_of_not_acknowledging (not_acknowledging_of_idle hidle c')
        (fun h => hc' ((hack c').1 h).symm) (hpending' c')
    · exact congrArg Ledger.pending (ledger_didWriteValueFor hidle h c')

/-- **What waits behind an event** that is not a call. -/
theorem waiting_cases (hcall : ∀ call, e ≠ .call call) (h : s.step describe invoke e = some t) :
    (SameWaiting s t ∧ s.CallsListener describe e) ∨
    (∃ c k value, s.entered describe e = some (k, value) ∧ TakesRead c k s t) ∨
    ∃ c k value, s.entered describe e = some (k, value) ∧ TakesHandler c k s t := by
  rcases step_cases h with ⟨call, rfl, h⟩ | ⟨rfl, h⟩ | ⟨ch, value, error, rfl, hidle, h⟩ |
    ⟨ch, error, rfl, hidle, -, h⟩ | ⟨hquiet, hidle, hne, hupdate, hwrite⟩
  · exact absurd rfl (hcall call)
  · exact (waiting_callbackReturned h).imp_right .inl
  · exact (waiting_didUpdateValueFor hidle h).imp_right .inl
  · exact (waiting_didWriteValueFor hidle h).imp_right .inr
  · refine .inl ⟨⟨fun c => ?_, fun c => ?_⟩, fun k value hk => ?_⟩
    · exact pendingReads_congr hquiet.handler (.inr (congrArg (queue · c) hquiet.reads))
    · exact waitingHandlers_congr (congrArg (queue · c) hquiet.writes)
        (acknowledging_congr hquiet.handler)
    · cases e with
      | call call => exact absurd rfl (hcall call)
      | callbackReturned =>
        simp only [entered, hidle.1, hidle.2] at hk
        cases hk
      | didUpdateValueFor ch v error => exact absurd rfl (hupdate ch v error)
      | didWriteValueFor ch error => exact absurd rfl (hwrite ch error)
      | _ => cases hk

/-! ## Calls -/

/-- A read at an idle moment adds its closure, unless it is answered at once or refused. -/
theorem waiting_read (hidle : s.Idle) {closure : κ} (h : s.read invoke c closure = some t) :
    (∀ c', t.waitingHandlers c' = s.waitingHandlers c') ∧
      (∀ c', c' ≠ c → t.pendingReads c' = s.pendingReads c') ∧
      (t.pendingReads c = s.pendingReads c ∨
        s.entered describe (.call (.read c closure)) = none ∧
          t.pendingReads c = s.pendingReads c ++ [closure]) := by
  rcases read_eq_cases invoke s c closure with
    ⟨value, -, -, hread⟩ | ⟨-, -, hread⟩ | ⟨hnone, -, p, ch, hread⟩
  · obtain ⟨app, -, rfl⟩ := enter_eq_some (hread.symm.trans h)
    exact ⟨fun _ => rfl, fun _ _ => rfl, .inl rfl⟩
  · obtain rfl := Option.some.inj (hread.symm.trans h)
    exact ⟨fun _ => rfl, fun _ _ => rfl, .inl rfl⟩
  · obtain rfl := Option.some.inj (hread.symm.trans h)
    have hpending : ∀ c', (s.queueRead p ch c closure).pendingReads c' =
        if c' = c then s.pendingReads c ++ [closure] else s.pendingReads c' := fun c' => by
      have hs : ∀ c, s.pendingReads c = s.queuedReads c := fun c =>
        pendingReads_of_not_answering (by simp [answering_of_idle hidle])
      rw [hs, hs, pendingReads_of_not_answering]
      · exact queue_enqueue _ _ _ _
      · have hanswering : (s.queueRead p ch c closure).answering = s.answering := rfl
        simp [hanswering, answering_of_idle hidle]
    refine ⟨fun _ => rfl, fun c' hc => (hpending c').trans (if_neg hc), .inr ⟨?_, ?_⟩⟩
    · rw [entered, hnone]
      rfl
    · exact (hpending c).trans (if_pos rfl)

/-- A write adds its handler, unless it is refused. -/
theorem waiting_write (hidle : s.Idle) (data : Option Data) (handler : κ) :
    (∀ c', (s.write data c handler).pendingReads c' = s.pendingReads c') ∧
      (∀ c', c' ≠ c → (s.write data c handler).waitingHandlers c' = s.waitingHandlers c') ∧
      ((s.write data c handler).waitingHandlers c = s.waitingHandlers c ∨
        (s.write data c handler).waitingHandlers c = s.waitingHandlers c ++ [handler]) := by
  refine ⟨fun c' => congrArg Ledger.pending (ledger_write s data c handler c'), ?_⟩
  unfold write
  cases s.manager.characteristicMap c.asCBUUID with
  | none => exact ⟨fun _ _ => rfl, .inl rfl⟩
  | some ch =>
    obtain ⟨requests, unacknowledged, ht⟩ :=
      (s.queueHandler c handler).writeValue_frame data c true (some handler)
    dsimp only
    rw [ht]
    have hwaiting : ∀ c', (s.queueHandler c handler).waitingHandlers c' =
        if c' = c then s.waitingHandlers c ++ [handler] else s.waitingHandlers c' := fun c' => by
      rw [waitingHandlers_of_idle hidle, waitingHandlers_of_idle hidle,
        waitingHandlers_of_idle (s := s.queueHandler c handler) hidle]
      exact queue_enqueue _ _ _ _
    exact ⟨fun c' hc => (hwaiting c').trans (if_neg hc), .inr ((hwaiting c).trans (if_pos rfl))⟩

theorem waiting_writeValue (s : System κ α) (data : Option Data) (withResponse : Bool) :
    SameWaiting s (s.writeValue data c withResponse none) := by
  obtain ⟨requests, unacknowledged, ht⟩ := s.writeValue_frame data c withResponse none
  rw [ht]
  exact ⟨fun _ => rfl, fun _ => rfl⟩

end Rx7.Bluetooth.System
