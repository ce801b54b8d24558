import Rx7.Bluetooth.Steps
import Rx7.Foundations.Ledger

/-!
# Read requests

Of each characteristic, the manager keeps a `Ledger` of the closures that read calls gave it: those
accepted, those answered and those pending. While `handleUpdate` is in its second loop the pending
ones are those it has still to call, since the dictionary entry is cleared behind the loop. A read
queued in the meantime (`lateRead`) is therefore never answered. `ledger_step` shows that every
step of the system is a step of the ledger, one that loses the closure exactly where the read is
late, and `reads_answered_or_queued_iff` draws the conclusion for runs.
-/

namespace Rx7.Bluetooth

open Queues Transition

namespace Occurrence

variable {κ : Type} (c : Characteristics)

/-- The closure that a read of `c` was accepted with. -/
@[simp] def acceptedRead : Occurrence κ → Option κ
  | .readAccepted c' closure => if c' = c then some closure else none
  | _ => none

/-- The read closure of `c` that was called. -/
@[simp] def answeredRead : Occurrence κ → Option κ
  | .readAnswered c' closure _ => if c' = c then some closure else none
  | _ => none

end Occurrence

namespace System

variable {κ α : Type} {describe : CBUUID → String} {invoke : κ → Option Data → α → Option α}

/-- The closures given to read calls of `c` that passed the guard, in order. -/
def acceptedReads (s : System κ α) (c : Characteristics) : List κ :=
  s.log.filterMap (Occurrence.acceptedRead c)

/-- The read closures of `c` that were invoked, in order. -/
def answeredReads (s : System κ α) (c : Characteristics) : List κ :=
  s.log.filterMap (Occurrence.answeredRead c)

/-- The read closures of `c` in `readRequestCallbacks`. -/
def queuedReads (s : System κ α) (c : Characteristics) : List κ :=
  queue s.manager.readRequestCallbacks c

/-- The characteristic whose read callbacks `handleUpdate` is calling, if it is in that loop. -/
def answering (s : System κ α) : Option Characteristics :=
  match s.handler with
  | some (.answering c _ _) => some c
  | _ => none

/-- The read closures of `c` still to be called: those left in the loop over them, if it is
running, and those of the dictionary otherwise. -/
def pendingReads (s : System κ α) (c : Characteristics) : List κ :=
  match s.handler with
  | some (.answering c' _ rest) => if c' = c then rest else s.queuedReads c
  | _ => s.queuedReads c

def ledger (c : Characteristics) (s : System κ α) : Ledger κ where
  accepted := s.acceptedReads c
  answered := s.answeredReads c
  pending := s.pendingReads c

/-- The cached value that answers a read at once, if there is one. -/
def cachedAnswer (s : System κ α) (c : Characteristics) : Option Data :=
  match s.manager.characteristicMap c.asCBUUID, s.manager.connectedPeripheral with
  | some readingCharacteristic, some _ =>
    match s.values readingCharacteristic, readingCharacteristic.notify with
    | some value, true => some value
    | _, _ => none
  | _, _ => none

/-- Whether a read of `c` is queued: it passes the guard and no cached value answers it. -/
def queuesRead (s : System κ α) (c : Characteristics) : Bool :=
  (s.manager.characteristicMap c.asCBUUID).isSome && s.manager.connectedPeripheral.isSome &&
    (s.cachedAnswer c).isNone

/-- The closure of a read of `c` that is queued while the read callbacks of `c` are being called. -/
def lateRead (c : Characteristics) (s : System κ α) : Event κ → Option κ
  | .call (.read c' closure) =>
    if c' = c ∧ s.answering = some c ∧ s.queuesRead c then some closure else none
  | _ => none

/-! ## One step -/

section Step

variable {s t : System κ α} {e : Event κ} {c c' : Characteristics}

theorem pendingReads_of_not_answering (h : s.answering ≠ some c) :
    s.pendingReads c = s.queuedReads c := by
  unfold pendingReads
  unfold answering at h
  split
  · rename_i c' value rest hs
    rw [hs] at h
    rw [if_neg fun hc => h (congrArg some hc)]
  · rfl

/-- The pending reads of `c` change only by its queue, and not while its loop is running. -/
theorem pendingReads_congr (hhandler : t.handler = s.handler)
    (h : s.answering = some c ∨ t.queuedReads c = s.queuedReads c) :
    t.pendingReads c = s.pendingReads c := by
  simp only [pendingReads, hhandler]
  split
  · rename_i c' value rest hs
    by_cases hc : c' = c
    · rw [if_pos hc, if_pos hc]
    · rw [if_neg hc, if_neg hc]
      refine h.resolve_left fun ha => hc ?_
      rw [answering, hs] at ha
      exact Option.some.inj ha
  · rename_i hs
    refine h.resolve_left fun ha => ?_
    unfold answering at ha
    split at ha
    · rename_i c' value rest hs'
      exact hs c' value rest hs'
    · cases ha

theorem answering_of_idle (h : s.Idle) : s.answering = none := by
  rw [answering, h.1]

/-- The ledger behind a step that adds `os` to the record. -/
theorem ledger_eq_of_log {os : List (Occurrence κ)} (h : t.log = s.log ++ os) :
    t.ledger c = ⟨s.acceptedReads c ++ os.filterMap (Occurrence.acceptedRead c),
      s.answeredReads c ++ os.filterMap (Occurrence.answeredRead c), t.pendingReads c⟩ := by
  rw [ledger, acceptedReads, answeredReads, h, List.filterMap_append, List.filterMap_append]
  rfl

/-- A step that does not touch the read callbacks leaves the ledger as it is. -/
theorem ledger_eq_of_frame {os : List (Occurrence κ)} (hlog : t.log = s.log ++ os)
    (hos : ∀ o ∈ os, o.acceptedRead c = none ∧ o.answeredRead c = none)
    (hpending : t.pendingReads c = s.pendingReads c) : t.ledger c = s.ledger c := by
  rw [ledger_eq_of_log hlog, hpending, List.filterMap_eq_nil_iff.2 fun o ho => (hos o ho).1,
    List.filterMap_eq_nil_iff.2 fun o ho => (hos o ho).2, List.append_nil, List.append_nil]
  rfl

theorem step_of_ledger_eq (h : t.ledger c = s.ledger c) :
    Ledger.Step (s.ledger c) none (t.ledger c) := h ▸ .stay _

/-- The second loop of `handleUpdate`: the head of the pending reads is answered, and nothing is
lost by the clearing behind the loop. -/
theorem ledger_answerNext {value : Option Data} {rest : List κ}
    (hrest : s.pendingReads c' = rest)
    (hother : ∀ c, c ≠ c' → s.pendingReads c = s.queuedReads c)
    (h : s.answerNext invoke c' value rest = some t) (c : Characteristics) :
    Ledger.Step (s.ledger c) none (t.ledger c) := by
  cases rest with
  | nil =>
    obtain rfl := Option.some.inj h
    have hlog : s.log = s.log ++ [] := (List.append_nil _).symm
    refine step_of_ledger_eq (ledger_eq_of_frame hlog (by simp) ?_)
    by_cases hc : c = c'
    · subst hc
      rw [hrest]
      exact queue_clear_self _ _
    · rw [hother c hc]
      exact queue_clear_of_ne _ _ hc
  | cons callback rest =>
    obtain ⟨app, -, ht⟩ := enter_eq_some h
    have hlog : t.log = s.log ++ [.readAnswered c' callback value] := by rw [ht]; rfl
    by_cases hc : c = c'
    · subst hc
      have hs : s.ledger c = ⟨s.acceptedReads c, s.answeredReads c, callback :: rest⟩ := by
        rw [ledger, hrest]
      have hpending : t.pendingReads c = rest := by simp [ht, pendingReads]
      rw [ledger_eq_of_log hlog, hs, hpending]
      simpa [List.filterMap_cons] using
        Ledger.Step.answer (s.acceptedReads c) (s.answeredReads c) rest callback
    · have hc' : ¬ c' = c := fun h => hc h.symm
      have hpending : t.pendingReads c = s.pendingReads c := by
        rw [hother c hc]
        simp only [ht, pendingReads, if_neg hc']
        rfl
      exact step_of_ledger_eq (ledger_eq_of_frame hlog (by simp [hc']) hpending)

/-- The first loop of `handleUpdate` and the way into the second. -/
theorem ledger_notifyNext {value : Option Data} {rest : List κ} (hs : s.answering = none)
    (h : s.notifyNext invoke c' value rest = some t) (c : Characteristics) :
    Ledger.Step (s.ledger c) none (t.ledger c) := by
  have hpending : ∀ c, s.pendingReads c = s.queuedReads c := fun c =>
    pendingReads_of_not_answering (by simp [hs])
  cases rest with
  | nil =>
    rcases notifyNext_nil_cases h with ⟨readCallbacks, hcallbacks, h⟩ | ⟨-, rfl⟩
    · refine ledger_answerNext ?_ (fun c _ => hpending c) h c
      rw [hpending]
      exact queue_of_some hcallbacks
    · have hlog : s.log = s.log ++ [] := (List.append_nil _).symm
      exact step_of_ledger_eq (ledger_eq_of_frame hlog (by simp) (hpending c).symm)
  | cons callback rest =>
    obtain ⟨app, -, rfl⟩ := enter_eq_some h
    exact step_of_ledger_eq (ledger_eq_of_frame rfl
      (by simp [Occurrence.acceptedRead, Occurrence.answeredRead]) (hpending c).symm)

theorem ledger_answerCached {closure : κ} {value : Data}
    (h : s.answerCached invoke c' closure value = some t) (c : Characteristics) :
    Ledger.Step (s.ledger c) none (t.ledger c) := by
  obtain ⟨app, -, ht⟩ := enter_eq_some h
  have hlog : t.log =
      s.log ++ [.readAccepted c' closure, .readAnswered c' closure (some value)] := by
    rw [ht]
  have hpending : t.pendingReads c = s.pendingReads c := by rw [ht]; rfl
  by_cases hc : c' = c
  · rw [ledger_eq_of_log hlog, hpending]
    simpa [ledger, List.filterMap_cons, hc] using
      Ledger.Step.serve (s.acceptedReads c) (s.answeredReads c) (s.pendingReads c) closure
  · exact step_of_ledger_eq (ledger_eq_of_frame hlog (by simp [hc]) hpending)

/-- A read that is queued is accepted, and lost where it comes late. -/
theorem ledger_queueRead {peripheral : CBPeripheral} {ch : CBCharacteristic} {closure : κ}
    (ht : s.queueRead peripheral ch c' closure = t) (c : Characteristics) :
    Ledger.Step (s.ledger c)
      (if c' = c ∧ s.answering = some c then some closure else none) (t.ledger c) := by
  have hlog : t.log =
      s.log ++ [.readAccepted c' closure, .requested (.readValue peripheral ch)] := by
    rw [← ht]
    rfl
  have hqueue : t.queuedReads c =
      if c = c' then s.queuedReads c' ++ [closure] else s.queuedReads c := by
    rw [← ht]
    exact queue_enqueue _ _ _ _
  have hhandler : t.handler = s.handler := by rw [← ht]; rfl
  have hanswering : t.answering = s.answering := by rw [answering, hhandler, answering]
  by_cases hc : c' = c
  · subst hc
    rw [ledger_eq_of_log hlog]
    by_cases hs : s.answering = some c'
    · have hpending : t.pendingReads c' = s.pendingReads c' :=
        pendingReads_congr hhandler (.inl hs)
      rw [if_pos ⟨rfl, hs⟩, hpending]
      simpa [ledger, List.filterMap_cons] using
        Ledger.Step.lose (s.acceptedReads c') (s.answeredReads c') (s.pendingReads c') closure
    · have hpending : t.pendingReads c' = s.pendingReads c' ++ [closure] := by
        rw [pendingReads_of_not_answering (hanswering ▸ hs), pendingReads_of_not_answering hs,
          hqueue, if_pos rfl]
      rw [if_neg fun h => hs h.2, hpending]
      simpa [ledger, List.filterMap_cons] using
        Ledger.Step.accept (s.acceptedReads c') (s.answeredReads c') (s.pendingReads c') closure
  · rw [if_neg fun h => hc h.1]
    refine step_of_ledger_eq (ledger_eq_of_frame hlog (by simp [hc]) ?_)
    refine pendingReads_congr hhandler (.inr ?_)
    rw [hqueue, if_neg fun h => hc h.symm]

/-- A read is answered with the cached value, or refused, or queued. -/
theorem read_eq_cases (invoke : κ → Option Data → α → Option α) (s : System κ α)
    (c : Characteristics) (closure : κ) :
    (∃ value, s.cachedAnswer c = some value ∧ s.queuesRead c = false ∧
      s.read invoke c closure = s.answerCached invoke c closure value) ∨
    (s.cachedAnswer c = none ∧ s.queuesRead c = false ∧ s.read invoke c closure = some s) ∨
    (s.cachedAnswer c = none ∧ s.queuesRead c = true ∧
      ∃ p ch, s.read invoke c closure = some (s.queueRead p ch c closure)) := by
  unfold queuesRead cachedAnswer read
  cases s.manager.characteristicMap c.asCBUUID with
  | none => exact .inr (.inl ⟨rfl, rfl, rfl⟩)
  | some ch =>
    cases s.manager.connectedPeripheral with
    | none => exact .inr (.inl ⟨rfl, rfl, rfl⟩)
    | some p =>
      dsimp only
      cases s.values ch with
      | none => exact .inr (.inr ⟨rfl, rfl, p, ch, rfl⟩)
      | some value =>
        cases ch.notify with
        | false => exact .inr (.inr ⟨rfl, rfl, p, ch, rfl⟩)
        | true => exact .inl ⟨value, rfl, rfl, rfl⟩

/-- A read is answered at once where the characteristic notifies and has a cached value. -/
theorem cachedAnswer_eq_some_iff {value : Data} :
    s.cachedAnswer c = some value ↔ ∃ ch, s.manager.characteristicMap c.asCBUUID = some ch ∧
      s.manager.connectedPeripheral.isSome = true ∧ ch.notify = true ∧
      s.values ch = some value := by
  unfold cachedAnswer
  cases s.manager.characteristicMap c.asCBUUID with
  | none => simp
  | some ch =>
    cases s.manager.connectedPeripheral with
    | none => simp
    | some p =>
      dsimp only
      cases hvalue : s.values ch with
      | none => simp [hvalue]
      | some value => cases hnotify : ch.notify <;> simp [hvalue, hnotify]

theorem lateRead_of_not_queuesRead {closure : κ} (h : s.queuesRead c' = false) :
    s.lateRead c (.call (.read c' closure)) = none := by
  refine if_neg fun ⟨hc, _, hqueues⟩ => ?_
  rw [← hc, h] at hqueues
  cases hqueues

theorem lateRead_of_queuesRead {closure : κ} (h : s.queuesRead c' = true) :
    s.lateRead c (.call (.read c' closure)) =
      if c' = c ∧ s.answering = some c then some closure else none := by
  rw [lateRead]
  by_cases hc : c' = c
  · subst hc
    simp [h]
  · rw [if_neg fun h => hc h.1, if_neg fun h => hc h.1]

theorem ledger_read {closure : κ} (h : s.read invoke c' closure = some t) (c : Characteristics) :
    Ledger.Step (s.ledger c) (s.lateRead c (.call (.read c' closure))) (t.ledger c) := by
  rcases read_eq_cases invoke s c' closure with
    ⟨value, -, hqueues, hread⟩ | ⟨-, hqueues, hread⟩ | ⟨-, hqueues, p, ch, hread⟩
  · rw [lateRead_of_not_queuesRead hqueues]
    exact ledger_answerCached (hread.symm.trans h) c
  · rw [lateRead_of_not_queuesRead hqueues]
    obtain rfl := Option.some.inj (hread.symm.trans h)
    exact .stay _
  · rw [lateRead_of_queuesRead hqueues]
    exact ledger_queueRead (Option.some.inj (hread.symm.trans h)) c

theorem ledger_writeValue (s : System κ α) (data : Option Data) (c' : Characteristics)
    (withResponse : Bool) (handler : Option κ) (c : Characteristics) :
    (s.writeValue data c' withResponse handler).ledger c = s.ledger c := by
  obtain ⟨requests, unacknowledged, ht⟩ := s.writeValue_frame data c' withResponse handler
  rw [ht]
  exact ledger_eq_of_frame rfl (by simp) rfl

theorem ledger_write (s : System κ α) (data : Option Data) (c' : Characteristics) (handler : κ)
    (c : Characteristics) : (s.write data c' handler).ledger c = s.ledger c := by
  unfold write
  split
  · rfl
  · rw [ledger_writeValue]
    exact ledger_eq_of_frame rfl (by simp) rfl

theorem ledger_finishAcknowledgement (h : s.finishAcknowledgement c' = some t)
    (hs : s.answering = none) (c : Characteristics) : t.ledger c = s.ledger c := by
  obtain rfl := finishAcknowledgement_eq h
  have hlog : s.log = s.log ++ [] := (List.append_nil _).symm
  have hpending : s.pendingReads c = s.queuedReads c :=
    pendingReads_of_not_answering (by simp [hs])
  exact ledger_eq_of_frame hlog (by simp) hpending.symm

theorem ledger_callbackReturned (h : s.callbackReturned invoke = some t) (c : Characteristics) :
    Ledger.Step (s.ledger c) none (t.ledger c) := by
  rcases callbackReturned_cases h with ⟨nested, -, rfl⟩ | ⟨c', value, rest, hs, h⟩ |
    ⟨c', value, rest, hs, h⟩ | ⟨c', hs, h⟩
  · exact .stay _
  · exact ledger_notifyNext (by rw [answering, hs]) h c
  · refine ledger_answerNext ?_ (fun c hc => ?_) h c
    · rw [pendingReads, hs]
      exact if_pos rfl
    · exact pendingReads_of_not_answering fun ha => hc (by simpa [answering, hs] using ha.symm)
  · exact step_of_ledger_eq (ledger_finishAcknowledgement h (by rw [answering, hs]) c)

theorem ledger_didUpdateValueFor {ch : CBCharacteristic} {value : Option Data}
    {error : Option Error} (hidle : s.Idle)
    (h : s.didUpdateValueFor invoke ch value error = some t) (c : Characteristics) :
    Ledger.Step (s.ledger c) none (t.ledger c) := by
  rcases didUpdateValueFor_cases h with ⟨e, -, rfl⟩ | ⟨-, -, rfl⟩ | ⟨c', -, -, h⟩
  · exact .stay _
  · exact .stay _
  · exact ledger_notifyNext (s := { s with values := Function.update s.values ch value })
      (answering_of_idle hidle) h c

theorem ledger_didWriteValueFor {ch : CBCharacteristic} {error : Option Error} (hidle : s.Idle)
    (h : s.didWriteValueFor describe invoke ch error = some t) (c : Characteristics) :
    t.ledger c = s.ledger c := by
  have hs : s.pendingReads c = s.queuedReads c :=
    pendingReads_of_not_answering (by simp [answering_of_idle hidle])
  rcases didWriteValueFor_cases h with ⟨ht, -⟩ | ⟨c', callback, rest, -, -, ht⟩
  · subst ht
    exact ledger_eq_of_frame rfl (by simp) rfl
  · obtain ⟨app, -, ht⟩ := enter_eq_some ht
    have hlog : t.log =
        s.log ++ [.acknowledged ch error, .handlerCalled c' callback (s.values ch)] := by
      rw [ht]
      exact List.append_assoc _ _ _
    refine ledger_eq_of_frame hlog (by simp) ?_
    rw [hs, ht]
    rfl

/-- **Every step of the system is a step of the ledger of each characteristic**, and loses only
the closure of a late read. -/
theorem ledger_step (h : s.step describe invoke e = some t) (c : Characteristics) :
    Ledger.Step (s.ledger c) (s.lateRead c e) (t.ledger c) := by
  rcases step_cases h with ⟨call, rfl, h⟩ | ⟨rfl, h⟩ | ⟨ch, value, error, rfl, hidle, h⟩ |
    ⟨ch, error, rfl, hidle, -, h⟩ | ⟨hquiet, hidle, hcall, -⟩
  · cases call with
    | read c' closure => exact ledger_read h c
    | subscribe c' closure =>
      obtain rfl := Option.some.inj h
      exact .stay _
    | write data c' handler =>
      obtain rfl := Option.some.inj h
      exact step_of_ledger_eq (ledger_write s data c' handler c)
    | writeValue data c' withResponse =>
      obtain rfl := Option.some.inj h
      exact step_of_ledger_eq (ledger_writeValue s data c' withResponse none c)
  · exact ledger_callbackReturned h c
  · exact ledger_didUpdateValueFor hidle h c
  · exact step_of_ledger_eq (ledger_didWriteValueFor hidle h c)
  · have hlate : s.lateRead c e = none := by
      unfold lateRead
      split
      · exact (hcall _ rfl).elim
      · rfl
    have hpending : t.pendingReads c = s.pendingReads c :=
      pendingReads_congr hquiet.handler (.inr (congrArg (queue · c) hquiet.reads))
    obtain ⟨requests, hlog⟩ := hquiet.log
    rw [hlate]
    exact step_of_ledger_eq (ledger_eq_of_frame hlog (by simp) hpending)

end Step

/-! ## Runs -/

/-- **When every accepted read is answered once or still queued.** At an idle moment of a run this
holds exactly where no read of a characteristic was queued while its read callbacks were being
called. -/
theorem reads_answered_or_queued_iff {app : α} {es : List (Event κ)} {s : System κ α}
    (h : Run (ofPartial (step describe invoke)) { app } es s) (hidle : s.Idle) :
    (∀ c, (s.acceptedReads c).Perm (s.answeredReads c ++ s.queuedReads c)) ↔
      Run (restrict (ofPartial (step describe invoke)) fun s e => ∀ c, s.lateRead c e = none)
        { app } es s := by
  rw [Run.restrict_forall_iff (deterministic_ofPartial _) h]
  refine forall_congr' fun c => ?_
  obtain ⟨labels, hrun, hlabels⟩ :=
    h.simulate_labels (· = none) (deterministic_ofPartial _) fun s e t hs => ledger_step hs c
  have hperm := Ledger.perm_iff_of_run hrun
  rw [hlabels] at hperm
  rw [← hperm, ← pendingReads_of_not_answering (by simp [answering_of_idle hidle])]
  rfl

/-- Two parts of the app read the layout. The second does so in the callback of the first, when
the peripheral has answered. -/
def readWhileAnswering : List (Event Bool) :=
  let peripheral : CBPeripheral := ⟨0⟩
  let characteristic : CBCharacteristic :=
    ⟨peripheral, 0, Characteristics.layoutConfig.asCBUUID, false⟩
  [.didDiscover peripheral, .didConnect peripheral,
    .didDiscoverCharacteristicsFor peripheral (some [characteristic]),
    .call (.read .layoutConfig false),
    .didUpdateValueFor characteristic (some (.ofBytes [0, 0, 255, 255, 255] fun _ => 0)) none,
    .call (.read .layoutConfig true), .callbackReturned]

/-- The second read is neither answered nor queued. -/
theorem read_lost_while_answering :
    ∃ s : System Bool Unit, Run (ofPartial (step CBUUID.uuidString fun _ _ app => some app))
        { app := () } readWhileAnswering s ∧ s.Idle ∧
      ¬ ∀ c, (s.acceptedReads c).Perm (s.answeredReads c ++ s.queuedReads c) := by
  have htest : ((readWhileAnswering.foldlM (step CBUUID.uuidString fun _ _ app => some app)
      ({ app := () } : System Bool Unit)).any fun s =>
        decide (s.Idle ∧ ¬ (s.acceptedReads .layoutConfig).Perm
          (s.answeredReads .layoutConfig ++ s.queuedReads .layoutConfig))) = true := by
    decide
  obtain ⟨s, hs, hp⟩ := Run.exists_of_foldlM htest
  exact ⟨s, hs, (of_decide_eq_true hp).1, fun h => (of_decide_eq_true hp).2 (h _)⟩

theorem reads_answered_or_queued_iff_readWhileAnswering :
    ∃ s : System Bool Unit, Run (ofPartial (step CBUUID.uuidString fun _ _ app => some app))
        { app := () } readWhileAnswering s ∧
      ((∀ c, (s.acceptedReads c).Perm (s.answeredReads c ++ s.queuedReads c)) ↔
        Run (restrict (ofPartial (step CBUUID.uuidString fun _ _ app => some app))
          fun s e => ∀ c, s.lateRead c e = none) { app := () } readWhileAnswering s) := by
  have htest : ((readWhileAnswering.foldlM (step CBUUID.uuidString fun _ _ app => some app)
      ({ app := () } : System Bool Unit)).any fun s => decide s.Idle) = true := by decide
  obtain ⟨s, hs, hidle⟩ := Run.exists_of_foldlM htest
  exact ⟨s, hs, reads_answered_or_queued_iff hs (of_decide_eq_true hidle)⟩

end System

end Rx7.Bluetooth
