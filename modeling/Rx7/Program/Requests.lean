import Rx7.Bluetooth.Transfers
import Rx7.Program.Thresholds

/-!
# What the program reads and writes

The program reads the thresholds and the layout, writes the layout, and sends the shutdown. Of what
its inputs ask for in a run (`purposes`), what was read and written is a part, in the same order
(`transfers_run`): nothing is sent twice for one press, or without one, and nothing else is sent. A
layout that was written is that of an editor which was saved, with the lists that it had then, and
the program reads it back as these.
-/

namespace Rx7.Program

open Bluetooth Transition

/-- What a read or a write is for. -/
inductive Purpose
  | readThresholds
  | readLayout
  | writeLayout (gauges monitors : List EngineDataItem)
  | shutdown
  deriving DecidableEq

/-- What an event asks for in a state: the manager of the thresholds reads them where it is made,
and an editor that is alive and was changed writes its lists. -/
def asks (s : Program) : Event → List Purpose
  | .input (.thresholdCellForRowAt _ row) | .input (.thresholdDidSelectRowAt row) =>
    if (EngineDataItem.ofRawValue row).isSome ∧ s.app.thresholdManager = none then
      [.readThresholds]
    else []
  | .input .thresholdListDidAppear => [.readThresholds]
  | .input .openGaugeEditor => [.readLayout]
  | .input (.saveGauges number) =>
    match s.app.gaugeEditors number with
    | none => []
    | some editor =>
      if editor.configHasChanged then [.writeLayout editor.gauges editor.monitors] else []
  | .input .shutdown => [.shutdown]
  | _ => []

/-- What the events of a run from a state ask for. -/
def purposes (uikit : UIKit) (describe : CBUUID → String) (s : Program) : List Event → List Purpose
  | [] => []
  | e :: events =>
    asks s e ++
      match step uikit describe s e with
      | none => []
      | some t => purposes uikit describe t events

theorem purposes_cons {uikit : UIKit} {describe : CBUUID → String} {s t : Program} {e : Event}
    (h : step uikit describe s e = some t) (events : List Event) :
    purposes uikit describe s (e :: events) = asks s e ++ purposes uikit describe t events := by
  rw [purposes, h]

theorem purposes_snoc {uikit : UIKit} {describe : CBUUID → String} {s t : Program}
    {events : List Event} (h : Run (ofPartial (step uikit describe)) s events t) (e : Event) :
    purposes uikit describe s (events ++ [e]) =
      purposes uikit describe s events ++ asks t e := by
  induction events generalizing s with
  | nil =>
    obtain rfl := h.nil_inv
    cases he : step uikit describe t e <;> simp [purposes, he]
  | cons first events ih =>
    obtain ⟨u, hu, hrun⟩ := h.cons_inv
    rw [List.cons_append, purposes_cons hu, purposes_cons hu, ih hrun, List.append_assoc]

/-- A purpose is what an event of the run asks for in the state before it. -/
theorem asked_of_mem_purposes {uikit : UIKit} {describe : CBUUID → String} {s t : Program}
    {events : List Event} (h : Run (ofPartial (step uikit describe)) s events t) {purpose : Purpose}
    (hmem : purpose ∈ purposes uikit describe s events) :
    ∃ before e after u, events = before ++ e :: after ∧
      Run (ofPartial (step uikit describe)) s before u ∧ purpose ∈ asks u e := by
  induction h with
  | nil => cases hmem
  | @snoc events e u t hrun hs ih =>
    rw [purposes_snoc hrun, List.mem_append] at hmem
    rcases hmem with hmem | hmem
    · obtain ⟨before, e', after, v, rfl, hbefore, hasks⟩ := ih hmem
      exact ⟨before, e', after ++ [e], v, by simp, hbefore, hasks⟩
    · exact ⟨events, e, [], u, rfl, hrun, hmem⟩

/-- The peripherals and the characteristics that were reported. -/
def peripherals (events : List Event) : List CBPeripheral :=
  events.filterMap fun
    | .bluetooth event => event.peripheral
    | .input _ => none

def characteristics (events : List Event) : List CBCharacteristic :=
  events.flatMap fun
    | .bluetooth event => event.characteristics
    | .input _ => []

/-- What a request of the given purpose is, of a characteristic on a peripheral. -/
inductive Means (p : CBPeripheral) (ch : CBCharacteristic) : Purpose → Request → Prop
  | readThresholds (h : ch.uuid = Characteristics.thresholdConfig.asCBUUID) :
    Means p ch .readThresholds (.readValue p ch)
  | readLayout (h : ch.uuid = Characteristics.layoutConfig.asCBUUID) :
    Means p ch .readLayout (.readValue p ch)
  | writeLayout {gauges monitors : List EngineDataItem}
      (h : ch.uuid = Characteristics.layoutConfig.asCBUUID) :
    Means p ch (.writeLayout gauges monitors) (.writeValue p ch
      (.ofBytes (GaugeLayoutConfigManager.constructData gauges monitors) fun _ => 0) .withResponse)
  | shutdown (h : ch.uuid = Characteristics.shutdown.asCBUUID) :
    Means p ch .shutdown (.writeValue p ch (.ofBytes [] fun _ => 0) .withoutResponse)

/-- The request is of its purpose, and addresses what was reported. -/
def Serves (events : List Event) (request : Request) (purpose : Purpose) : Prop :=
  ∃ p ∈ peripherals events, ∃ ch ∈ characteristics events, Means p ch purpose request

/-- The call asks for it. -/
inductive Purpose.Of : Purpose → Call Closure → Prop
  | readThresholds (k : Closure) : Of .readThresholds (.read .thresholdConfig k)
  | readLayout (k : Closure) : Of .readLayout (.read .layoutConfig k)
  | writeLayout (gauges monitors : List EngineDataItem) (k : Closure) :
    Of (.writeLayout gauges monitors)
      (.write (some (.ofBytes (GaugeLayoutConfigManager.constructData gauges monitors) fun _ => 0))
        .layoutConfig k)
  | shutdown : Of .shutdown (.writeValue none .shutdown false)

section

variable {uikit : UIKit} {describe : CBUUID → String} {s t : Program} {e : Event}
  {events : List Event}

/-- What was asked for and requested in a run. -/
structure Requested (uikit : UIKit) (describe : CBUUID → String) (events : List Event)
    (s : Program) : Prop where
  found : System.Found (peripherals events) (characteristics events) s
  served : List.SublistForall₂ (Serves events) s.transfers (purposes uikit describe launch events)

theorem Serves.mono {purpose : Purpose} {request : Request} (h : Serves events request purpose)
    (e : Event) : Serves (events ++ [e]) request purpose := by
  obtain ⟨p, hp, ch, hch, hmeans⟩ := h
  refine ⟨p, ?_, ch, ?_, hmeans⟩
  · rw [peripherals, List.filterMap_append]
    exact List.mem_append_left _ hp
  · rw [characteristics, List.flatMap_append]
    exact List.mem_append_left _ hch

/-- What a call requests is of the purpose that it asks for. -/
theorem serves_of_call (hfound : System.Found (peripherals events) (characteristics events) s)
    (hd : s.Discovered) {purpose : Purpose} {call : Call Closure} (hcall : purpose.Of call)
    {request : Request} (h : s.requestOf (.call call) = some request) :
    Serves events request purpose := by
  cases hcall with
  | readThresholds k =>
    obtain ⟨p, hp, ch, hch, huuid, rfl⟩ := hfound.requestOfRead hd h
    exact ⟨p, hp, ch, hch, .readThresholds huuid⟩
  | readLayout k =>
    obtain ⟨p, hp, ch, hch, huuid, rfl⟩ := hfound.requestOfRead hd h
    exact ⟨p, hp, ch, hch, .readLayout huuid⟩
  | writeLayout gauges monitors k =>
    obtain ⟨p, hp, ch, hch, huuid, rfl⟩ := hfound.requestOfWrite hd h
    exact ⟨p, hp, ch, hch, .writeLayout huuid⟩
  | shutdown =>
    obtain ⟨p, hp, ch, hch, huuid, rfl⟩ := hfound.requestOfWrite hd h
    exact ⟨p, hp, ch, hch, .shutdown huuid⟩

/-- A call that an input ends with is one that it asks for. -/
theorem asks_of_performs {input : Input} {parts : Parts} {call : Call Closure}
    (h : Performs uikit s.app input parts (some call)) :
    ∃ purpose, asks s (.input input) = [purpose] ∧ purpose.Of call := by
  -- the read of the manager that is made here is the only one that is not asked for each time
  have hmakes : ∀ call', s.app.thresholdConfigManager.2 = some call' →
      s.app.thresholdManager = none ∧ Purpose.Of .readThresholds call' := by
    intro call' hcall'
    obtain ⟨hmanager, rfl⟩ := thresholdConfigManager_call hcall'
    exact ⟨hmanager, .readThresholds _⟩
  generalize hcall : some call = called at h
  cases h with
  | cell cell hrow | noThreshold hrow hthreshold | opensPage hrow hthreshold =>
    obtain ⟨hnone, hof⟩ := hmakes call hcall.symm
    exact ⟨_, if_pos ⟨by simp [hrow], hnone⟩, hof⟩
  | listDidAppear =>
    cases hcall
    exact ⟨_, rfl, .readThresholds _⟩
  | opensEditor =>
    cases hcall
    exact ⟨_, rfl, .readLayout _⟩
  | saves heditor hc =>
    cases hcall
    exact ⟨_, by simp only [asks, heditor, hc, if_true], .writeLayout _ _ _⟩
  | shutdown =>
    cases hcall
    exact ⟨_, rfl, .shutdown⟩
  | _ => cases hcall

theorem found_input (events : List Event) (input : Input) :
    peripherals (events ++ [.input input]) = peripherals events ∧
      characteristics (events ++ [.input input]) = characteristics events := by
  refine ⟨?_, ?_⟩
  · rw [peripherals, List.filterMap_append]
    exact List.append_nil _
  · rw [characteristics, List.flatMap_append]
    exact List.append_nil _

theorem found_bluetooth (events : List Event) (event : Bluetooth.Event Closure) :
    peripherals (events ++ [.bluetooth event]) = peripherals events ++ event.peripheral.toList ∧
      characteristics (events ++ [.bluetooth event]) =
        characteristics events ++ event.characteristics := by
  refine ⟨?_, ?_⟩
  · rw [peripherals, List.filterMap_append]
    cases hp : event.peripheral <;> simp [peripherals, hp]
  · rw [characteristics, List.flatMap_append]
    exact congrArg _ (List.append_nil _)

/-- Nothing more is requested than an event asks for. -/
theorem Requested.served_snoc (hrun : Run (ofPartial (step uikit describe)) launch events s)
    (h : Requested uikit describe events s) {requested : List Request}
    (ht : t.transfers = s.transfers ++ requested)
    (hrequested : requested = [] ∨ ∃ purpose request,
      asks s e = [purpose] ∧ requested = [request] ∧ Serves events request purpose) :
    List.SublistForall₂ (Serves (events ++ [e])) t.transfers
      (purposes uikit describe launch (events ++ [e])) := by
  obtain ⟨served, hserves, hsub⟩ := List.sublistForall₂_iff.1 h.served
  have hmono := hserves.imp fun _ _ h => Serves.mono h e
  rw [ht, purposes_snoc hrun, List.sublistForall₂_iff]
  rcases hrequested with rfl | ⟨purpose, request, hasks, rfl, hrequest⟩
  · rw [List.append_nil]
    exact ⟨served, hmono, hsub.trans (List.sublist_append_left _ _)⟩
  · rw [hasks]
    exact ⟨served ++ [purpose], List.rel_append hmono (.cons (hrequest.mono e) .nil),
      hsub.append_right _⟩

theorem requested_step (hrun : Run (ofPartial (step uikit describe)) launch events s)
    (hrequested : Requested uikit describe events s) (h : step uikit describe s e = some t) :
    Requested uikit describe (events ++ [e]) t := by
  rcases step_cases h with ⟨event, u, rfl, hcall, hu, rfl⟩ | ⟨input, parts, rfl, -, hperform, rfl⟩ |
    ⟨input, parts, call, rfl, -, hperform, h⟩
  · obtain ⟨dashboard, ht⟩ := observeState_eq u event
    have hfound := System.found_step hrequested.found hu
    have hrequestOf : s.requestOf event = none := by
      cases event with
      | call call => cases hcall
      | _ => rfl
    have htransfers := System.transfers_step hu
    rw [hrequestOf] at htransfers
    rw [ht]
    refine ⟨?_, hrequested.served_snoc hrun htransfers (.inl rfl)⟩
    rw [(found_bluetooth events event).1, (found_bluetooth events event).2]
    exact ⟨hfound.peripheral, hfound.characteristic⟩
  · refine ⟨?_, hrequested.served_snoc hrun (List.append_nil _).symm (.inl rfl)⟩
    rw [(found_input events input).1, (found_input events input).2]
    exact ⟨hrequested.found.peripheral, hrequested.found.characteristic⟩
  · have hfound := System.found_step (s := { s with app := parts })
      ⟨hrequested.found.peripheral, hrequested.found.characteristic⟩ h
    refine ⟨?_, ?_⟩
    · rw [(found_input events input).1, (found_input events input).2]
      simpa [Bluetooth.Event.peripheral, Bluetooth.Event.characteristics] using hfound
    · obtain ⟨purpose, hasks, hof⟩ := asks_of_performs (perform_cases hperform)
      have htransfers := System.transfers_step (s := { s with app := parts }) h
      refine hrequested.served_snoc hrun htransfers ?_
      cases hrequest : System.requestOf { s with app := parts } (.call call) with
      | none => exact .inl rfl
      | some request =>
        refine .inr ⟨purpose, request, hasks, rfl, ?_⟩
        exact serves_of_call (s := { s with app := parts })
          ⟨hrequested.found.peripheral, hrequested.found.characteristic⟩
          ((settled_run hrun).withApp parts).accounted.discovered hof hrequest

theorem requested_run (h : Run (ofPartial (step uikit describe)) launch events s) :
    Requested uikit describe events s := by
  induction h with
  | nil => exact ⟨⟨fun _ hp => (by cases hp), fun _ _ hch => (by cases hch)⟩, .nil⟩
  | snoc hrun hs ih => exact requested_step hrun ih hs

/-- What was requested serves one of the purposes. -/
theorem exists_serves {requests : List Request} {purposes : List Purpose}
    (h : List.SublistForall₂ (Serves events) requests purposes) {request : Request}
    (hmem : request ∈ requests) : ∃ purpose ∈ purposes, Serves events request purpose := by
  induction h with
  | nil => cases hmem
  | @cons first second _ _ hserves _ ih =>
    rcases List.mem_cons.1 hmem with rfl | hmem
    · exact ⟨second, List.mem_cons_self, hserves⟩
    · obtain ⟨purpose, hpurpose, hserves⟩ := ih hmem
      exact ⟨purpose, List.mem_cons_of_mem _ hpurpose, hserves⟩
  | cons_right _ ih =>
    obtain ⟨purpose, hpurpose, hserves⟩ := ih hmem
    exact ⟨purpose, List.mem_cons_of_mem _ hpurpose, hserves⟩

/-- The lists are those of an editor where it was saved, changed, in the run. -/
def SavedBy (uikit : UIKit) (describe : CBUUID → String) (events : List Event)
    (gauges monitors : List EngineDataItem) : Prop :=
  ∃ before number after s editor, events = before ++ .input (.saveGauges number) :: after ∧
    Run (ofPartial (step uikit describe)) launch before s ∧
    s.app.gaugeEditors number = some editor ∧ editor.configHasChanged = true ∧
    editor.gauges = gauges ∧ editor.monitors = monitors

/-- Only the save of an editor asks for a write of the layout. -/
theorem save_of_asks {gauges monitors : List EngineDataItem}
    (h : .writeLayout gauges monitors ∈ asks s e) :
    ∃ number editor, e = .input (.saveGauges number) ∧ s.app.gaugeEditors number = some editor ∧
      editor.configHasChanged = true ∧ editor.gauges = gauges ∧ editor.monitors = monitors := by
  cases e with
  | bluetooth event => cases h
  | input input =>
    cases input with
    | saveGauges number =>
      rw [asks] at h
      cases heditor : s.app.gaugeEditors number with
      | none => simp [heditor] at h
      | some editor =>
        simp only [heditor] at h
        split_ifs at h with hc
        · obtain ⟨rfl, rfl⟩ := Purpose.writeLayout.inj (List.mem_singleton.1 h)
          exact ⟨number, editor, rfl, heditor, hc, rfl, rfl⟩
        · cases h
    | _ => simp [asks] at h

/-- **What a run reads and writes** is a part of what its inputs ask for, in their order: the
thresholds, once where their manager is made and once each time that their list appears, the layout
for each editor that is opened, a write of its lists for each save of an editor that was changed,
and the shutdown for each time that its dialog is confirmed. Each request addresses a peripheral and
a characteristic that were reported, and a written layout is parsed to the lists that an editor had
where it was saved. -/
theorem transfers_run (h : Run (ofPartial (step uikit describe)) launch events s) :
    List.SublistForall₂ (Serves events) s.transfers (purposes uikit describe launch events) ∧
    ∀ p ch data, .writeValue p ch data .withResponse ∈ s.transfers → ∃ gauges monitors,
      SavedBy uikit describe events gauges monitors ∧
      ∀ layout : GaugeLayoutConfigManager,
        layout.parseResponse data = .ok { gauges, monitors } := by
  have hserved := (requested_run h).served
  refine ⟨hserved, fun p ch data hmem => ?_⟩
  obtain ⟨purpose, hpurpose, p', -, ch', -, hmeans⟩ := exists_serves hserved hmem
  cases hmeans with
  | @writeLayout gauges monitors huuid =>
    obtain ⟨before, e, after, u, rfl, hbefore, hasks⟩ := asked_of_mem_purposes h hpurpose
    obtain ⟨number, editor, rfl, hsave⟩ := save_of_asks hasks
    exact ⟨gauges, monitors, ⟨before, number, after, u, editor, rfl, hbefore, hsave⟩,
      fun layout => layout.parseResponse_constructData gauges monitors _⟩

/-- An editor is opened, answered, edited and saved, and the program is told to shut down. -/
def saveAndShutdown : List Event :=
  let peripheral : CBPeripheral := ⟨0⟩
  let layoutConfig : CBCharacteristic :=
    ⟨peripheral, 0, Characteristics.layoutConfig.asCBUUID, false⟩
  let shutdown : CBCharacteristic := ⟨peripheral, 1, Characteristics.shutdown.asCBUUID, false⟩
  [.bluetooth (.didDiscover peripheral), .bluetooth (.didConnect peripheral),
    .bluetooth (.didDiscoverCharacteristicsFor peripheral (some [layoutConfig, shutdown])),
    .input .openGaugeEditor,
    .bluetooth (.didUpdateValueFor layoutConfig (some (.ofBytes [1, 0] fun _ => 0)) none),
    .bluetooth .callbackReturned, .input (.reloadGaugeTable 0),
    .input (.editGauges 0 (.addItem .boost ⟨0, 0⟩)), .input (.saveGauges 0),
    .input .thresholdListDidAppear, .input .shutdown]

theorem transfers_run_saveAndShutdown :
    ∃ s, Run (ofPartial (step .clamping CBUUID.uuidString)) launch saveAndShutdown s ∧
      purposes .clamping CBUUID.uuidString launch saveAndShutdown =
        [.readLayout, .writeLayout [.boost] [], .readThresholds, .shutdown] ∧
      s.transfers.length = 3 ∧
      List.SublistForall₂ (Serves saveAndShutdown) s.transfers
        (purposes .clamping CBUUID.uuidString launch saveAndShutdown) ∧
      ∀ p ch data, .writeValue p ch data .withResponse ∈ s.transfers → ∃ gauges monitors,
        SavedBy .clamping CBUUID.uuidString saveAndShutdown gauges monitors ∧
        ∀ layout : GaugeLayoutConfigManager,
          layout.parseResponse data = .ok { gauges, monitors } := by
  have hrun : Run (ofPartial (step .clamping CBUUID.uuidString)) launch saveAndShutdown _ :=
    Run.of_foldlM rfl
  exact ⟨_, hrun, rfl, rfl, transfers_run hrun⟩

end

end Rx7.Program
