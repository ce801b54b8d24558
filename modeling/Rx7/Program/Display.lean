import Rx7.Bluetooth.Connection
import Rx7.Display.Labels
import Rx7.Program.Steps

/-!
# What the program shows

Of an event of the program the pages see a packet, where it is an update of the engine data without
an error, the `state` that the manager sends, or what the pages are told themselves (`shown`).
Nothing else of the program, such as a read answered in the middle or an editor, touches them:
the program refines the `Dashboard` (`display_step`), and its `state` is the manager's.
-/

namespace Rx7.Program

open Bluetooth Transition Queues

/-- What the pages see of an event. -/
def shown : Event → List Dashboard.Event
  | .bluetooth (.didUpdateValueFor characteristic value none) =>
    if characteristic.uuid = Characteristics.engineData.asCBUUID then [.received value] else []
  | .bluetooth event => (sentState event).toList.map .stateSent
  | .input (.display event) => [event]
  | .input _ => []

section

variable {uikit : UIKit} {describe : CBUUID → String} {s t u : Program} {e : Event}
  {events : List Event} {event : Bluetooth.Event Closure} {parts parts' : Parts}

/-- Only the closure of the engine data touches the pages. -/
theorem dashboard_invoke {k : Closure} {value : Option Data} (hk : k ≠ .engineData)
    (h : k.invoke value parts = some parts') : parts'.dashboard = parts.dashboard := by
  cases k with
  | engineData => exact absurd rfl hk
  | initializeThresholds =>
    cases value with
    | none =>
      obtain rfl := Option.some.inj h
      rfl
    | some data =>
      obtain rfl := Option.some.inj h
      rfl
  | noOp =>
    obtain rfl := Option.some.inj h
    rfl
  | load editor =>
    cases value with
    | none =>
      obtain rfl := Option.some.inj h
      rfl
    | some data =>
      simp only [Closure.invoke] at h
      cases hparse : parts.layout.parseResponse data with
      | error trap =>
        rw [hparse] at h
        cases h
      | ok layout =>
        rw [hparse] at h
        obtain rfl := Option.some.inj h
        rfl
  | saved editor =>
    obtain rfl := Option.some.inj h
    rfl

theorem ne_engineData_of_readBy {c : Characteristics} {k : Closure} (h : ReadBy c k) :
    k ≠ .engineData := by
  rintro rfl
  cases h

/-- A step of Bluetooth but an update of the engine data leaves the pages as they are. -/
theorem dashboard_of_step (hs : Settled s) (hcall : isCall event = false)
    (hevent : ∀ ch value, event = .didUpdateValueFor ch value none →
      System.updatedCharacteristic ch.uuid ≠ some .engineData)
    (h : System.step describe Closure.invoke s event = some u) :
    u.app.dashboard = s.app.dashboard := by
  have happ := System.app_of_step h
  cases hentered : s.entered describe event with
  | none =>
    rw [hentered] at happ
    rw [← Option.some.inj happ]
  | some called =>
    obtain ⟨k, value⟩ := called
    rw [hentered] at happ
    refine dashboard_invoke ?_ happ
    rcases entered_cases hs hcall hevent hentered with ⟨c, hk⟩ | ⟨-, -, -, editor, -, -, rfl⟩
    · exact ne_engineData_of_readBy hk
    · simp

/-- The call that an input ends with leaves the pages as they are. -/
theorem dashboard_of_asked {call : Call Closure} (hcall : Asked call)
    (h : System.step describe Closure.invoke s (.call call) = some u) :
    u.app.dashboard = s.app.dashboard := by
  have happ := System.app_of_step h
  cases hentered : s.entered describe (.call call) with
  | none =>
    rw [hentered] at happ
    rw [← Option.some.inj happ]
  | some called =>
    obtain ⟨c, hk⟩ := readBy_of_asked hcall hentered
    rw [hentered] at happ
    exact dashboard_invoke (ne_engineData_of_readBy hk) happ

/-- Of the inputs, the pages see their own. -/
theorem dashboard_perform {input : Input} {call : Option (Call Closure)}
    (h : parts.perform uikit input = some (parts', call)) :
    Run (ofPartial Dashboard.step) parts.dashboard (shown (.input input)) parts'.dashboard := by
  cases perform_cases h with
  | display hpage hdashboard => exact .single hdashboard
  | _ => exact .nil

/-- **An event does to the pages what they see of it**, and nothing else. -/
theorem display_step (hs : Settled s) (h : step uikit describe s e = some t) :
    Run (ofPartial Dashboard.step) s.app.dashboard (shown e) t.app.dashboard := by
  rcases step_cases h with ⟨event, u, rfl, hcall, hu, rfl⟩ | ⟨input, parts, rfl, -, hperform, rfl⟩ |
    ⟨input, parts, call, rfl, -, hperform, h⟩
  · by_cases hevent : ∃ ch value, event = .didUpdateValueFor ch value none ∧
      System.updatedCharacteristic ch.uuid = some .engineData
    · obtain ⟨ch, value, rfl, hch⟩ := hevent
      have happ := System.app_of_step hu
      rw [entered_engineData hs hch] at happ
      obtain ⟨dashboard, hdashboard, happ⟩ := Option.map_eq_some_iff.1 happ
      have hshown : shown (.bluetooth (.didUpdateValueFor ch value none)) = [.received value] :=
        if_pos ((System.updatedCharacteristic_eq_some_iff (by simp) ch.uuid).1 hch)
      have hu' : u.app.dashboard = dashboard := by rw [← happ]
      rw [hshown]
      refine .single ?_
      show s.app.dashboard.received value = some u.app.dashboard
      rw [hu', hdashboard]
    · have hsame := dashboard_of_step hs hcall
        (fun ch value he hch => hevent ⟨ch, value, he, hch⟩) hu
      have hshown : shown (.bluetooth event) = (sentState event).toList.map .stateSent := by
        cases event with
        | didUpdateValueFor ch value error =>
          cases error with
          | some error => rfl
          | none =>
            refine if_neg fun hch => hevent ⟨ch, value, rfl, ?_⟩
            exact (System.updatedCharacteristic_eq_some_iff (by simp) ch.uuid).2 hch
        | _ => rfl
      rw [hshown, ← hsame, observeState]
      cases sentState event with
      | none => exact .nil
      | some state => exact .single rfl
  · exact dashboard_perform hperform
  · rw [dashboard_of_asked (asked_of_perform hperform) h]
    exact dashboard_perform hperform

/-! ## The state -/

theorem state_of_step (h : System.step describe Closure.invoke s event = some u) :
    u.manager.state = (sentState event).getD s.manager.state := by
  rcases System.link_cases h with ⟨hsame, he⟩ | ⟨state, rfl, rfl⟩ | ⟨p, rfl, rfl⟩ |
    ⟨p, cs, rfl, -, -, rfl⟩
  · rw [hsame.state]
    cases event with
    | didDiscover p => cases he
    | didDiscoverCharacteristicsFor p cs => cases he
    | _ => rfl
  · cases state <;> rfl
  · rfl
  · cases cs with
    | none => rfl
    | some cs =>
      refine (System.foldl_addCharacteristic (fun u => u.manager.state) (fun u ch => ?_) cs _).trans
        rfl
      obtain ⟨log, hu⟩ := u.addCharacteristic_frame p ch
      rw [hu]

/-- An input sends no state. -/
theorem sent_input {input : Input} {call : Option (Call Closure)}
    (h : parts.perform uikit input = some (parts', call)) :
    (shown (.input input)).filterMap Dashboard.Event.sentState = [] := by
  cases perform_cases h with
  | @display event dashboard hpage hdashboard =>
    cases event with
    | stateSent state => cases hpage
    | _ => rfl
  | _ => rfl

theorem sent_bluetooth (event : Bluetooth.Event Closure) :
    (shown (.bluetooth event)).filterMap Dashboard.Event.sentState = (sentState event).toList := by
  have hsent : ∀ state : Option BluetoothState,
      (state.toList.map Dashboard.Event.stateSent).filterMap Dashboard.Event.sentState =
        state.toList := by
    intro state
    cases state <;> rfl
  cases event with
  | didUpdateValueFor ch value error =>
    cases error with
    | some error => rfl
    | none =>
      simp only [shown]
      split_ifs <;> rfl
  | _ => exact hsent _

/-- The manager's `state` is the one that was sent last. -/
theorem state_step (h : step uikit describe s e = some t) : t.manager.state =
    ((shown e).filterMap Dashboard.Event.sentState).getLast?.getD s.manager.state := by
  rcases step_cases h with ⟨event, u, rfl, -, hu, rfl⟩ | ⟨input, parts, rfl, -, hperform, rfl⟩ |
    ⟨input, parts, call, rfl, -, hperform, h⟩
  · obtain ⟨dashboard, ht⟩ := observeState_eq u event
    rw [ht, sent_bluetooth]
    refine (state_of_step hu).trans ?_
    cases sentState event <;> rfl
  · rw [sent_input hperform]
    rfl
  · rw [sent_input hperform]
    exact state_of_step h

theorem state_run (h : Run (ofPartial (step uikit describe)) launch events s) : s.manager.state =
    ((events.flatMap shown).filterMap Dashboard.Event.sentState).getLast?.getD .unknown := by
  induction h with
  | nil => rfl
  | snoc h hs ih =>
    rw [state_step hs, ih, List.flatMap_append, List.flatMap_singleton, List.filterMap_append,
      List.getLast?_append]
    cases (List.filterMap Dashboard.Event.sentState (shown _)).getLast? <;> rfl

/-- **The pages of the running program** see the packets, the states and what they are told
themselves in the order of the events, and nothing else, whatever is read, saved and edited in the
meantime. So each field of the current point is that of the latest packet that carried it, and the
state they show is the manager's. -/
theorem display_run (h : Run (ofPartial (step uikit describe)) launch events s) :
    Run (ofPartial Dashboard.step) {} (events.flatMap shown) s.app.dashboard ∧
      (∀ key, (s.app.dashboard.telemetry.engine.current.bind fun p => p.field key) =
        LastWrite.latest ((Dashboard.points (events.flatMap shown)).map fun p => p.field key)) ∧
      s.app.dashboard.state = s.manager.state := by
  have hrun : Run (ofPartial Dashboard.step) {} (events.flatMap shown) s.app.dashboard := by
    induction h with
    | nil => exact .nil
    | snoc h hs ih =>
      rw [List.flatMap_append, List.flatMap_singleton]
      exact ih.append (display_step (settled_run h) hs)
  exact ⟨hrun, (Dashboard.current_run hrun).2, (Dashboard.state_run hrun).trans (state_run h).symm⟩

/-- The interface is found, and sends a packet. -/
def firstPacket : List Event :=
  let peripheral : CBPeripheral := ⟨0⟩
  let characteristic : CBCharacteristic :=
    ⟨peripheral, 0, Characteristics.engineData.asCBUUID, true⟩
  [.bluetooth (.didDiscover peripheral), .bluetooth (.didConnect peripheral),
    .bluetooth (.didDiscoverCharacteristicsFor peripheral (some [characteristic])),
    .input (.display .pageDidLoad),
    .bluetooth (.didUpdateValueFor characteristic
      (some (.ofBytes (218 :: List.replicate 24 0) fun _ => 0)) none),
    .bluetooth .callbackReturned]

theorem display_run_firstPacket :
    ∃ s, Run (ofPartial (step .clamping CBUUID.uuidString)) launch firstPacket s ∧
      Run (ofPartial Dashboard.step) {} (firstPacket.flatMap shown) s.app.dashboard ∧
      (∀ key, (s.app.dashboard.telemetry.engine.current.bind fun p => p.field key) =
        LastWrite.latest
          ((Dashboard.points (firstPacket.flatMap shown)).map fun p => p.field key)) ∧
      s.app.dashboard.state = s.manager.state := by
  have hrun : Run (ofPartial (step .clamping CBUUID.uuidString)) launch firstPacket _ :=
    Run.of_foldlM rfl
  exact ⟨_, hrun, display_run hrun⟩

end

end Rx7.Program
