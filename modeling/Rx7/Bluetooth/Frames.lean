import Rx7.Bluetooth.Steps

/-!
# The two sides of the manager

Reading and listening never touch the writes, and the other way round. `ReadSide R s t` says that
only reading and listening went on between two states, with closures that meet `R`; where the held
ones meet it (`Holds R`), so do those called. `step_sides` sorts the steps: the reading side, a
write, an acknowledgement, the return of its handler, and the connection (`Quiet`).
-/

namespace Rx7.Bluetooth

open Queues Transition

/-- Whether the writing side records it. -/
@[simp] def Occurrence.ofWrite {κ : Type} : Occurrence κ → Bool
  | .writeAccepted .. | .acknowledged .. | .handlerCalled .. => true
  | _ => false

/-- The closure that an event gives to the reading side. -/
def Event.givenRead {κ : Type} : Event κ → Option κ
  | .call (.read _ closure) | .call (.subscribe _ closure) => some closure
  | _ => none

namespace System

variable {κ α : Type} {describe : CBUUID → String} {invoke : κ → Option Data → α → Option α}

/-- The closures that a delegate method has still to call. -/
def rest (s : System κ α) : List κ :=
  match s.handler with
  | some (.notifying _ _ rest) | some (.answering _ _ rest) => rest
  | _ => []

/-- The closures held for listening and reading meet `R`. -/
structure Holds (R : κ → Prop) (s : System κ α) : Prop where
  listeners : ∀ c, ∀ k ∈ queue s.manager.listeners c, R k
  reads : ∀ c, ∀ k ∈ queue s.manager.readRequestCallbacks c, R k
  rest : ∀ k ∈ s.rest, R k

theorem holds_of_app (R : κ → Prop) (app : α) : Holds R ({ app } : System κ α) :=
  ⟨by simp [queue], by simp [queue], by simp [System.rest]⟩

def Acknowledging (s : System κ α) (c : Characteristics) : Prop :=
  s.handler = some (.acknowledging c)

instance (s : System κ α) (c : Characteristics) : Decidable (s.Acknowledging c) :=
  match h : s.handler with
  | some (.acknowledging c') => decidable_of_iff (c' = c) (by simp [Acknowledging, h])
  | some (.notifying ..) | some (.answering ..) | none => isFalse (by simp [Acknowledging, h])

/-- Only listening and reading went on, with closures that meet `R`. -/
structure ReadSide (invoke : κ → Option Data → α → Option α) (R : κ → Prop) (s t : System κ α) :
    Prop where
  connectedPeripheral : t.manager.connectedPeripheral = s.manager.connectedPeripheral
  characteristicMap : t.manager.characteristicMap = s.manager.characteristicMap
  delegates : t.delegates = s.delegates
  writes : t.manager.writeWithResponseRequestCallbacks = s.manager.writeWithResponseRequestCallbacks
  unacknowledged : t.unacknowledged = s.unacknowledged
  acknowledging : ∀ c, t.Acknowledging c ↔ s.Acknowledging c
  log : ∃ os : List (Occurrence κ), t.log = s.log ++ os ∧ ∀ o ∈ os, o.ofWrite = false
  app : t.app = s.app ∨ ∃ closure value, R closure ∧ invoke closure value s.app = some t.app
  holds : t.Holds R

section

variable {R : κ → Prop} {s t : System κ α} {c : Characteristics} {value : Option Data}

theorem readSide_answerCached {closure : κ} {value : Data} (hR : s.Holds R) (hk : R closure)
    (h : s.answerCached invoke c closure value = some t) : ReadSide invoke R s t := by
  obtain ⟨app, happ, rfl⟩ := enter_eq_some h
  exact ⟨rfl, rfl, rfl, rfl, rfl, fun _ => .rfl, ⟨_, rfl, by simp⟩, .inr ⟨closure, _, hk, happ⟩,
    ⟨hR.listeners, hR.reads, hR.rest⟩⟩

theorem readSide_queueRead {closure : κ} (hR : s.Holds R) (hk : R closure) (p : CBPeripheral)
    (ch : CBCharacteristic) : ReadSide invoke R s (s.queueRead p ch c closure) := by
  refine ⟨rfl, rfl, rfl, rfl, rfl, fun _ => .rfl, ⟨_, rfl, by simp⟩, .inl rfl,
    ⟨hR.listeners, fun c' k hmem => ?_, hR.rest⟩⟩
  rcases mem_queue_enqueue hmem with hmem | ⟨-, rfl⟩
  · exact hR.reads c' k hmem
  · exact hk

theorem readSide_refl (hR : s.Holds R) : ReadSide invoke R s s :=
  ⟨rfl, rfl, rfl, rfl, rfl, fun _ => .rfl, ⟨[], by simp, by simp⟩, .inl rfl, hR⟩

theorem readSide_read {closure : κ} (hR : s.Holds R) (hk : R closure)
    (h : s.read invoke c closure = some t) : ReadSide invoke R s t := by
  unfold read at h
  split at h
  · split at h
    · exact readSide_answerCached hR hk h
    · exact Option.some.inj h ▸ readSide_queueRead hR hk _ _
  · exact Option.some.inj h ▸ readSide_refl hR

theorem readSide_subscribe {closure : κ} (hR : s.Holds R) (hk : R closure) :
    ReadSide invoke R s (s.subscribe c closure) := by
  refine ⟨rfl, rfl, rfl, rfl, rfl, fun _ => .rfl, ⟨[], by simp [subscribe], by simp⟩, .inl rfl,
    ⟨fun c' k hmem => ?_, hR.reads, hR.rest⟩⟩
  rcases mem_queue_enqueue hmem with hmem | ⟨-, rfl⟩
  · exact hR.listeners c' k hmem
  · exact hk

theorem readSide_answerNext {rest : List κ} (hR : s.Holds R) (hrest : ∀ k ∈ rest, R k)
    (hs : ∀ c, ¬ s.Acknowledging c) (h : s.answerNext invoke c value rest = some t) :
    ReadSide invoke R s t := by
  cases rest with
  | nil =>
    obtain rfl := Option.some.inj h
    exact ⟨rfl, rfl, rfl, rfl, rfl, fun c => iff_of_false (by simp [Acknowledging]) (hs c),
      ⟨[], by simp, by simp⟩, .inl rfl,
      ⟨hR.listeners, fun c' k hmem => hR.reads c' k (mem_of_mem_queue_clear hmem),
        by simp [System.rest]⟩⟩
  | cons callback rest =>
    obtain ⟨app, happ, rfl⟩ := enter_eq_some h
    exact ⟨rfl, rfl, rfl, rfl, rfl, fun c => iff_of_false (by simp [Acknowledging]) (hs c),
      ⟨_, rfl, by simp⟩, .inr ⟨callback, _, hrest _ List.mem_cons_self, happ⟩,
      ⟨hR.listeners, hR.reads, fun k hmem => hrest k (List.mem_cons_of_mem _ hmem)⟩⟩

theorem readSide_notifyNext {rest : List κ} (hR : s.Holds R) (hrest : ∀ k ∈ rest, R k)
    (hs : ∀ c, ¬ s.Acknowledging c) (h : s.notifyNext invoke c value rest = some t) :
    ReadSide invoke R s t := by
  cases rest with
  | nil =>
    rcases notifyNext_nil_cases h with ⟨readCallbacks, hcallbacks, h⟩ | ⟨-, rfl⟩
    · exact readSide_answerNext hR (fun k hk => hR.reads c k (queue_of_some hcallbacks ▸ hk)) hs h
    · exact ⟨rfl, rfl, rfl, rfl, rfl, fun c => iff_of_false (by simp [Acknowledging]) (hs c),
        ⟨[], by simp, by simp⟩, .inl rfl, ⟨hR.listeners, hR.reads, by simp [System.rest]⟩⟩
  | cons callback rest =>
    obtain ⟨app, happ, rfl⟩ := enter_eq_some h
    exact ⟨rfl, rfl, rfl, rfl, rfl, fun c => iff_of_false (by simp [Acknowledging]) (hs c),
      ⟨_, rfl, by simp⟩, .inr ⟨callback, _, hrest _ List.mem_cons_self, happ⟩,
      ⟨hR.listeners, hR.reads, fun k hmem => hrest k (List.mem_cons_of_mem _ hmem)⟩⟩

theorem not_acknowledging_of_idle (h : s.Idle) (c : Characteristics) : ¬ s.Acknowledging c := by
  simp [Acknowledging, h.1]

theorem readSide_didUpdateValueFor {ch : CBCharacteristic} {error : Option Error} (hidle : s.Idle)
    (hR : s.Holds R) (h : s.didUpdateValueFor invoke ch value error = some t) :
    ReadSide invoke R s t := by
  let s' : System κ α := { s with values := Function.update s.values ch value }
  have hR' : s'.Holds R := ⟨hR.listeners, hR.reads, hR.rest⟩
  have hvalues : ReadSide invoke R s' t → ReadSide invoke R s t := fun ht =>
    ⟨ht.connectedPeripheral, ht.characteristicMap, ht.delegates, ht.writes, ht.unacknowledged,
      ht.acknowledging, ht.log, ht.app, ht.holds⟩
  rcases didUpdateValueFor_cases h with ⟨e, -, rfl⟩ | ⟨-, -, rfl⟩ | ⟨c, -, -, h⟩
  · exact readSide_refl hR
  · exact hvalues (readSide_refl hR')
  · exact hvalues (readSide_notifyNext hR' (hR.listeners c) (not_acknowledging_of_idle hidle) h)

/-- A closure of the reading side returns, or the handler of an acknowledgement does. -/
theorem callbackReturned_sides (hR : s.Holds R) (h : s.callbackReturned invoke = some t) :
    ReadSide invoke R s t ∨ ∃ c, s.Acknowledging c ∧ s.finishAcknowledgement c = some t := by
  rcases callbackReturned_cases h with ⟨nested, -, rfl⟩ | ⟨c, value, rest, hs, h⟩ |
    ⟨c, value, rest, hs, h⟩ | hfinish
  · exact .inl ⟨rfl, rfl, rfl, rfl, rfl, fun _ => .rfl, ⟨[], by simp, by simp⟩, .inl rfl,
      ⟨hR.listeners, hR.reads, hR.rest⟩⟩
  · refine .inl (readSide_notifyNext hR (fun k hk => hR.rest k ?_) (by simp [Acknowledging, hs]) h)
    rwa [System.rest, hs]
  · refine .inl (readSide_answerNext hR (fun k hk => hR.rest k ?_) (by simp [Acknowledging, hs]) h)
    rwa [System.rest, hs]
  · exact .inr hfinish

end

/-- **The sides of a step.** -/
theorem step_sides {R : κ → Prop} {s t : System κ α} {e : Event κ} (hR : s.Holds R)
    (he : ∀ k ∈ e.givenRead, R k) (h : s.step describe invoke e = some t) :
    (ReadSide invoke R s t ∧ ∀ ch error, e ≠ .didWriteValueFor ch error) ∨
    (∃ data c handler, e = .call (.write data c handler) ∧ s.write data c handler = t) ∨
    (∃ data c withResponse, e = .call (.writeValue data c withResponse) ∧
      s.writeValue data c withResponse none = t) ∨
    (∃ c, e = .callbackReturned ∧ s.Acknowledging c ∧ s.finishAcknowledgement c = some t) ∨
    (∃ ch error, e = .didWriteValueFor ch error ∧ s.Idle ∧
      (s.acknowledgedWrite ch.uuid).map (·.characteristic) = some ch ∧
      s.didWriteValueFor describe invoke ch error = some t) ∨
    (Quiet s t ∧ ∀ ch error, e ≠ .didWriteValueFor ch error) := by
  rcases step_cases h with ⟨call, rfl, h⟩ | ⟨rfl, h⟩ | ⟨ch, value, error, rfl, hidle, h⟩ |
    ⟨ch, error, rfl, hidle, hch, h⟩ | ⟨hquiet, -, -, -, hne⟩
  · cases call with
    | read c closure => exact .inl ⟨readSide_read hR (he _ rfl) h, by simp⟩
    | subscribe c closure =>
      exact .inl ⟨Option.some.inj h ▸ readSide_subscribe hR (he _ rfl), by simp⟩
    | write data c handler => exact .inr (.inl ⟨data, c, handler, rfl, Option.some.inj h⟩)
    | writeValue data c withResponse =>
      exact .inr (.inr (.inl ⟨data, c, withResponse, rfl, Option.some.inj h⟩))
  · rcases callbackReturned_sides hR h with h | ⟨c, hc, h⟩
    · exact .inl ⟨h, by simp⟩
    · exact .inr (.inr (.inr (.inl ⟨c, rfl, hc, h⟩)))
  · exact .inl ⟨readSide_didUpdateValueFor hidle hR h, by simp⟩
  · exact .inr (.inr (.inr (.inr (.inl ⟨ch, error, rfl, hidle, hch, h⟩))))
  · exact .inr (.inr (.inr (.inr (.inr ⟨hquiet, hne⟩))))

end System

end Rx7.Bluetooth
