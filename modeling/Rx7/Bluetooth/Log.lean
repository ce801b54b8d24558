import Rx7.Bluetooth.Reads

/-!
# What a step records

The manager's own methods, which run behind the device's, record nothing but the closures that they
call and the acknowledgements that they are told of (`Replies`): what is read and written comes from
the calls. A read is accepted by a call of it and by nothing else (`acceptedReads_step`).
-/

namespace Rx7.Bluetooth

open Queues Transition

/-- A closure is called, or a write acknowledged. -/
def Occurrence.isReply {κ : Type} : Occurrence κ → Bool
  | .readAnswered .. | .listenerCalled .. | .acknowledged .. | .handlerCalled .. => true
  | _ => false

namespace System

variable {κ α : Type} {describe : CBUUID → String} {invoke : κ → Option Data → α → Option α}
  {s t u : System κ α} {e : Event κ} {c c' : Characteristics} {value : Option Data}

/-- Only replies are recorded. -/
def Replies (s t : System κ α) : Prop :=
  ∃ os, t.log = s.log ++ os ∧ ∀ o ∈ os, o.isReply = true

theorem Replies.of_log_eq (h : t.log = s.log) : Replies s t :=
  ⟨[], by rw [h, List.append_nil], fun _ ho => absurd ho List.not_mem_nil⟩

theorem Replies.single {o : Occurrence κ} (ho : o.isReply = true) (h : t.log = s.log ++ [o]) :
    Replies s t := by
  refine ⟨[o], h, fun o' ho' => ?_⟩
  rw [List.mem_singleton.1 ho']
  exact ho

/-- An observation that replies do not meet is left as it is. -/
theorem Replies.filterMap_eq {β : Type} {f : Occurrence κ → Option β} (h : Replies s t)
    (hf : ∀ o, o.isReply = true → f o = none) : t.log.filterMap f = s.log.filterMap f := by
  obtain ⟨os, hlog, hos⟩ := h
  rw [hlog, List.filterMap_append, List.filterMap_eq_nil_iff.2 fun o ho => hf o (hos o ho),
    List.append_nil]

theorem replies_answerNext {rest : List κ} (h : s.answerNext invoke c value rest = some t) :
    Replies s t := by
  cases rest with
  | nil =>
    obtain rfl := Option.some.inj h
    exact .of_log_eq rfl
  | cons callback rest =>
    obtain ⟨app, -, rfl⟩ := enter_eq_some h
    exact .single (o := .readAnswered c callback value) rfl rfl

theorem replies_notifyNext {rest : List κ} (h : s.notifyNext invoke c value rest = some t) :
    Replies s t := by
  cases rest with
  | nil =>
    rcases notifyNext_nil_cases h with ⟨readCallbacks, -, h⟩ | ⟨-, rfl⟩
    · exact replies_answerNext h
    · exact .of_log_eq rfl
  | cons callback rest =>
    obtain ⟨app, -, rfl⟩ := enter_eq_some h
    exact .single (o := .listenerCalled c callback value) rfl rfl

theorem replies_callbackReturned (h : s.callbackReturned invoke = some t) : Replies s t := by
  rcases callbackReturned_cases h with ⟨nested, -, rfl⟩ | ⟨c, value, rest, -, h⟩ |
    ⟨c, value, rest, -, h⟩ | ⟨c, -, h⟩
  · exact .of_log_eq rfl
  · exact replies_notifyNext h
  · exact replies_answerNext h
  · obtain rfl := finishAcknowledgement_eq h
    exact .of_log_eq rfl

theorem replies_didUpdateValueFor {ch : CBCharacteristic} {error : Option Error}
    (h : s.didUpdateValueFor invoke ch value error = some t) : Replies s t := by
  rcases didUpdateValueFor_cases h with ⟨e, -, rfl⟩ | ⟨-, -, rfl⟩ | ⟨c, -, -, h⟩
  · exact .of_log_eq rfl
  · exact .of_log_eq rfl
  · exact replies_notifyNext (s := { s with values := Function.update s.values ch value }) h

theorem replies_didWriteValueFor {ch : CBCharacteristic} {error : Option Error}
    (h : s.didWriteValueFor describe invoke ch error = some t) : Replies s t := by
  rcases didWriteValueFor_cases h with ⟨rfl, -⟩ | ⟨c, callback, rest, -, -, h⟩
  · exact .single (o := .acknowledged ch error) rfl rfl
  · obtain ⟨app, -, rfl⟩ := enter_eq_some h
    refine ⟨[.acknowledged ch error, .handlerCalled c callback (s.values ch)],
      List.append_assoc _ _ _, fun o ho => ?_⟩
    rcases List.mem_cons.1 ho with rfl | ho
    · rfl
    · rw [List.mem_singleton.1 ho]
      rfl

/-! ## Accepted reads -/

theorem acceptedReads_of_replies (h : Replies s t) (c : Characteristics) :
    t.acceptedReads c = s.acceptedReads c := by
  refine h.filterMap_eq fun o ho => ?_
  cases o with
  | readAccepted c' closure => cases ho
  | _ => rfl

/-- A call accepts its own read at most. -/
theorem acceptedReads_read {closure : κ} (h : s.read invoke c' closure = some t) :
    t.acceptedReads c = s.acceptedReads c ∨
      c' = c ∧ t.acceptedReads c = s.acceptedReads c ++ [closure] := by
  have haccepted : ∀ os, t.log = s.log ++ .readAccepted c' closure :: os →
      os.filterMap (Occurrence.acceptedRead c) = [] →
      t.acceptedReads c = s.acceptedReads c ∨
        c' = c ∧ t.acceptedReads c = s.acceptedReads c ++ [closure] := by
    intro os hlog hos
    rw [acceptedReads, hlog, List.filterMap_append]
    by_cases hc : c' = c
    · have hsome : Occurrence.acceptedRead c (.readAccepted c' closure) = some closure := if_pos hc
      refine .inr ⟨hc, ?_⟩
      rw [List.filterMap_cons_some hsome, hos]
      rfl
    · have hnone : Occurrence.acceptedRead c (.readAccepted c' closure) = none := if_neg hc
      refine .inl ?_
      rw [List.filterMap_cons_none hnone, hos, List.append_nil]
      rfl
  rcases read_eq_cases invoke s c' closure with
    ⟨value, -, -, hread⟩ | ⟨-, -, hread⟩ | ⟨-, -, p, ch, hread⟩
  · obtain ⟨app, -, rfl⟩ := enter_eq_some (hread.symm.trans h)
    exact haccepted [.readAnswered c' closure (some value)] rfl rfl
  · obtain rfl := Option.some.inj (hread.symm.trans h)
    exact .inl rfl
  · obtain rfl := Option.some.inj (hread.symm.trans h)
    exact haccepted [.requested (.readValue p ch)] rfl rfl

/-- **What a step accepts** is the read that its event asks for. -/
theorem acceptedReads_step (h : s.step describe invoke e = some t) (c : Characteristics) :
    t.acceptedReads c = s.acceptedReads c ∨
      ∃ k, e = .call (.read c k) ∧ t.acceptedReads c = s.acceptedReads c ++ [k] := by
  rcases step_cases h with ⟨call, rfl, ht⟩ | ⟨rfl, ht⟩ | ⟨ch, value, error, rfl, -, ht⟩ |
    ⟨ch, error, rfl, -, -, ht⟩ | ⟨hquiet, -⟩
  · cases call with
    | read c' closure =>
      rcases acceptedReads_read (c := c) ht with hsame | ⟨rfl, haccepted⟩
      · exact .inl hsame
      · exact .inr ⟨closure, rfl, haccepted⟩
    | subscribe c' closure =>
      obtain rfl := Option.some.inj ht
      exact .inl rfl
    | write data c' handler =>
      obtain rfl := Option.some.inj ht
      exact .inl (congrArg Ledger.accepted (ledger_write s data c' handler c))
    | writeValue data c' withResponse =>
      obtain rfl := Option.some.inj ht
      exact .inl (congrArg Ledger.accepted (ledger_writeValue s data c' withResponse none c))
  · exact .inl (acceptedReads_of_replies (replies_callbackReturned ht) c)
  · exact .inl (acceptedReads_of_replies (replies_didUpdateValueFor ht) c)
  · exact .inl (acceptedReads_of_replies (replies_didWriteValueFor ht) c)
  · obtain ⟨requests, hlog⟩ := hquiet.log
    refine .inl ?_
    rw [acceptedReads, hlog, List.filterMap_append, List.filterMap_map, acceptedReads]
    simp [Function.comp_def]

end System

end Rx7.Bluetooth
