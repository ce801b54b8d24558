import Rx7.Bluetooth.Calls
import Rx7.Bluetooth.Writes

/-!
# The values that closures are called with

A closure is called with the value of an update, or with one that an update brought before: the
cached value of a characteristic. The update was of the characteristic that the closure was given
for (`entered_valued`).
-/

namespace Rx7.Bluetooth

open Queues Transition

/-- The value that a delegate method calls closures with, and the UUID that it is of. -/
def Handler.value {κ : Type} : Handler κ → Option (CBUUID × Option Data)
  | .notifying c value _ | .answering c value _ => some (c.asCBUUID, value)
  | .acknowledging _ => none

/-- The value that an update without an error brings, and the UUID that it is of. -/
def Event.value {κ : Type} : Event κ → Option (CBUUID × Option Data)
  | .didUpdateValueFor ch value none => some (ch.uuid, value)
  | _ => none

namespace System

variable {κ α : Type} {describe : CBUUID → String} {invoke : κ → Option Data → α → Option α}
  {s t : System κ α} {e : Event κ} {c : Characteristics} {value : Option Data}
  {P : CBUUID → Option Data → Prop}

/-- The values that were brought meet a condition. -/
structure Valued (P : CBUUID → Option Data → Prop) (s : System κ α) : Prop where
  values : ∀ ch, P ch.uuid (s.values ch)
  handler : ∀ handler ∈ s.handler, ∀ brought ∈ handler.value, P brought.1 brought.2

theorem Valued.withApp (hs : s.Valued P) (app : α) : Valued P { s with app } :=
  ⟨hs.values, hs.handler⟩

theorem valued_answerNext {rest : List κ} (hs : ∀ ch, P ch.uuid (s.values ch))
    (hv : P c.asCBUUID value)
    (h : s.answerNext invoke c value rest = some t) : t.Valued P := by
  cases rest with
  | nil =>
    obtain rfl := Option.some.inj h
    exact ⟨hs, fun _ hh => (by cases hh)⟩
  | cons callback rest =>
    obtain ⟨app, -, rfl⟩ := enter_eq_some h
    refine ⟨hs, fun handler hh v hvalue => ?_⟩
    obtain rfl := Option.some.inj hh
    exact Option.some.inj hvalue ▸ hv

theorem valued_notifyNext {rest : List κ} (hs : ∀ ch, P ch.uuid (s.values ch))
    (hv : P c.asCBUUID value)
    (h : s.notifyNext invoke c value rest = some t) : t.Valued P := by
  cases rest with
  | nil =>
    rcases notifyNext_nil_cases h with ⟨readCallbacks, -, h⟩ | ⟨-, rfl⟩
    · exact valued_answerNext hs hv h
    · exact ⟨hs, fun _ hh => (by cases hh)⟩
  | cons callback rest =>
    obtain ⟨app, -, rfl⟩ := enter_eq_some h
    refine ⟨hs, fun handler hh v hvalue => ?_⟩
    obtain rfl := Option.some.inj hh
    exact Option.some.inj hvalue ▸ hv

theorem valued_call {call : Call κ} (hs : s.Valued P) (h : s.call invoke call = some t) :
    t.Valued P := by
  cases call with
  | read c closure =>
    rcases read_eq_cases invoke s c closure with
      ⟨value, -, -, hread⟩ | ⟨-, -, hread⟩ | ⟨-, -, p, ch, hread⟩
    · obtain ⟨app, -, rfl⟩ := enter_eq_some (hread.symm.trans h)
      exact ⟨hs.values, hs.handler⟩
    · obtain rfl := Option.some.inj (hread.symm.trans h)
      exact hs
    · obtain rfl := Option.some.inj (hread.symm.trans h)
      exact ⟨hs.values, hs.handler⟩
  | subscribe c closure =>
    obtain rfl := Option.some.inj h
    exact ⟨hs.values, hs.handler⟩
  | write data c handler =>
    obtain rfl := Option.some.inj h
    unfold write
    cases s.manager.characteristicMap c.asCBUUID with
    | none => exact hs
    | some ch =>
      obtain ⟨_, _, hu⟩ := (s.queueHandler c handler).writeValue_frame data c true (some handler)
      dsimp only
      rw [hu]
      exact ⟨hs.values, hs.handler⟩
  | writeValue data c withResponse =>
    obtain rfl := Option.some.inj h
    obtain ⟨_, _, hu⟩ := s.writeValue_frame data c withResponse none
    rw [hu]
    exact ⟨hs.values, hs.handler⟩

/-- **A step brings the value of its event** at most. -/
theorem valued_step (hs : s.Valued P) (he : ∀ brought ∈ e.value, P brought.1 brought.2)
    (h : s.step describe invoke e = some t) : t.Valued P := by
  rcases step_cases h with ⟨call, rfl, h⟩ | ⟨rfl, h⟩ | ⟨ch, value, error, rfl, -, h⟩ |
    ⟨ch, error, rfl, hidle, -, h⟩ | ⟨hquiet, hidle, -⟩
  · exact valued_call hs h
  · rcases callbackReturned_cases h with ⟨nested, -, rfl⟩ | ⟨c, value, rest, hh, h⟩ |
      ⟨c, value, rest, hh, h⟩ | ⟨c, -, h⟩
    · exact ⟨hs.values, hs.handler⟩
    · exact valued_notifyNext hs.values (hs.handler _ hh (c.asCBUUID, value) rfl) h
    · exact valued_answerNext hs.values (hs.handler _ hh (c.asCBUUID, value) rfl) h
    · obtain rfl := finishAcknowledgement_eq h
      exact ⟨hs.values, fun _ hh => (by cases hh)⟩
  · have hvalues : P ch.uuid value → ∀ ch', P ch'.uuid (Function.update s.values ch value ch') := by
      intro hv ch'
      rw [Function.update_apply]
      split_ifs with hch
      · exact hch ▸ hv
      · exact hs.values ch'
    rcases didUpdateValueFor_cases h with ⟨e, -, rfl⟩ | ⟨rfl, -, rfl⟩ | ⟨c, rfl, hc, h⟩
    · exact hs
    · exact ⟨hvalues (he (ch.uuid, value) rfl), hs.handler⟩
    · have hv : P ch.uuid value := he (ch.uuid, value) rfl
      exact valued_notifyNext (s := { s with values := Function.update s.values ch value })
        (hvalues hv) (uuid_of_updatedCharacteristic hc ▸ hv) h
  · rcases didWriteValueFor_cases h with ⟨rfl, -⟩ | ⟨c, callback, rest, -, -, h⟩
    · exact ⟨hs.values, hs.handler⟩
    · obtain ⟨app, -, rfl⟩ := enter_eq_some h
      refine ⟨hs.values, fun handler hh v hvalue => ?_⟩
      obtain rfl := Option.some.inj hh
      cases hvalue
  · refine ⟨?_, ?_⟩
    · rw [hquiet.values]
      exact hs.values
    · rw [hquiet.handler]
      exact hs.handler

/-- The closures that are called with a value of a characteristic: its listeners, those of its
reads, and those that the loop over them has still to call. -/
inductive CalledFor (s : System κ α) (e : Event κ) (c : Characteristics) (k : κ) : Prop
  | listener (h : k ∈ queue s.manager.listeners c)
  | notified {value : Option Data} {rest : List κ} (h : s.handler = some (.notifying c value rest))
      (hk : k ∈ rest)
  | queued (h : k ∈ s.queuedReads c)
  | answered {value : Option Data} {rest : List κ} (h : s.handler = some (.answering c value rest))
      (hk : k ∈ rest)
  | read (h : e = .call (.read c k))

/-- The closure that the loops call next, with their value. -/
theorem firstNotified_cases {rest : List κ} {k : κ} {v : Option Data}
    (h : s.firstNotified c value rest = some (k, v)) :
    v = value ∧ (k ∈ rest ∨ k ∈ s.queuedReads c) := by
  cases rest with
  | nil =>
    obtain ⟨k', hk', hk⟩ := Option.map_eq_some_iff.1 h
    obtain ⟨rfl, rfl⟩ := Prod.ext_iff.1 hk
    exact ⟨rfl, .inr (List.mem_of_mem_head? hk')⟩
  | cons callback rest =>
    obtain ⟨rfl, rfl⟩ := Prod.ext_iff.1 (Option.some.inj h)
    exact ⟨rfl, .inl List.mem_cons_self⟩

/-- **The value that a closure is called with** was brought, now or before, by an update of the
characteristic that the closure was given for; the handler of a write is called with the cached
value of the characteristic that is acknowledged. -/
theorem entered_valued (hs : s.Valued P) (hd : s.Discovered)
    (he : ∀ brought ∈ e.value, P brought.1 brought.2) {k : κ}
    (h : s.entered describe e = some (k, value)) :
    (∃ c, s.CalledFor e c k ∧ P c.asCBUUID value) ∨
      ∃ ch error c, e = .didWriteValueFor ch error ∧ k ∈ s.pendingHandlers c ∧
        P ch.uuid value := by
  cases e with
  | call call =>
    cases call with
    | read c closure =>
      obtain ⟨value', hvalue', hk⟩ := Option.map_eq_some_iff.1 h
      obtain ⟨ch, hch, -, -, hvalue⟩ := cachedAnswer_eq_some_iff.1 hvalue'
      obtain ⟨rfl, rfl⟩ := Prod.ext_iff.1 hk
      have hv := hs.values ch
      rw [hvalue, hd.uuid_eq _ ch hch] at hv
      exact .inl ⟨c, .read rfl, hv⟩
    | _ => cases h
  | callbackReturned =>
    cases hn : s.nested with
    | succ nested =>
      simp only [entered, hn] at h
      cases h
    | zero =>
      cases hh : s.handler with
      | none =>
        simp only [entered, hn, hh] at h
        cases h
      | some handler =>
        cases handler with
        | notifying c v rest =>
          simp only [entered, hn, hh] at h
          obtain ⟨rfl, hk⟩ := firstNotified_cases h
          have hv := hs.handler _ hh (c.asCBUUID, value) rfl
          exact .inl ⟨c, hk.elim (.notified hh) .queued, hv⟩
        | answering c v rest =>
          simp only [entered, hn, hh] at h
          obtain ⟨k', hk', hk⟩ := Option.map_eq_some_iff.1 h
          obtain ⟨rfl, rfl⟩ := Prod.ext_iff.1 hk
          have hv := hs.handler _ hh (c.asCBUUID, v) rfl
          exact .inl ⟨c, .answered hh (List.mem_of_mem_head? hk'), hv⟩
        | acknowledging c =>
          simp only [entered, hn, hh] at h
          cases h
  | didUpdateValueFor ch v error =>
    cases error with
    | some error => cases h
    | none =>
      obtain ⟨c, hc, h⟩ := Option.bind_eq_some_iff.1 h
      obtain ⟨rfl, hk⟩ := firstNotified_cases h
      have hv : P ch.uuid value := he (ch.uuid, value) rfl
      rw [uuid_of_updatedCharacteristic hc] at hv
      exact .inl ⟨c, hk.elim .listener .queued, hv⟩
  | didWriteValueFor ch error =>
    obtain ⟨c, -, h⟩ := Option.bind_eq_some_iff.1 h
    obtain ⟨k', hk', hk⟩ := Option.map_eq_some_iff.1 h
    obtain ⟨rfl, rfl⟩ := Prod.ext_iff.1 hk
    exact .inr ⟨ch, error, c, rfl, List.mem_of_mem_head? hk', hs.values ch⟩
  | _ => cases h

end System

end Rx7.Bluetooth
