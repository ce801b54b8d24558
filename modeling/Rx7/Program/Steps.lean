import Rx7.Program.Parts
import Rx7.Bluetooth.Contract
import Rx7.Bluetooth.Values

/-!
# What an event of the program can do

`step_cases` says it once. The manager holds the closures it was given for what they were given
for, and the engine state manager is its only listener (`Settled`); so the closure that an event
calls is known (`entered_cases`): that of the engine data at each update of it, else one of a read,
or the handler of a save at an acknowledgement.
-/

namespace Rx7.Program

open Bluetooth Transition Queues

section

variable {uikit : UIKit} {describe : CBUUID → String} {s t u : Program} {e : Event}
  {event : Bluetooth.Event Closure} {parts parts' : Parts} {call : Option (Call Closure)}

/-- **An event** is one of Bluetooth, with what is observed of its `state`, or a change of the parts
with one call of the Bluetooth manager at most. -/
theorem step_cases (h : step uikit describe s e = some t) :
    (∃ event u, e = .bluetooth event ∧ isCall event = false ∧
      System.step describe Closure.invoke s event = some u ∧ t = observeState u event) ∨
    (∃ input parts, e = .input input ∧ s.Idle ∧ s.app.perform uikit input = some (parts, none) ∧
      t = { s with app := parts }) ∨
    (∃ input parts call, e = .input input ∧ s.Idle ∧
      s.app.perform uikit input = some (parts, some call) ∧
      System.step describe Closure.invoke { s with app := parts } (.call call) = some t) := by
  cases e with
  | bluetooth event =>
    simp only [step] at h
    split_ifs at h with hcall
    obtain ⟨u, hu, rfl⟩ := Option.map_eq_some_iff.1 h
    exact .inl ⟨event, u, rfl, by simpa using hcall, hu, rfl⟩
  | input input =>
    simp only [step] at h
    split_ifs at h with hidle
    obtain ⟨⟨parts, call⟩, hperform, h⟩ := Option.bind_eq_some_iff.1 h
    cases call with
    | none => exact .inr (.inl ⟨input, parts, rfl, hidle, hperform, (Option.some.inj h).symm⟩)
    | some call => exact .inr (.inr ⟨input, parts, call, rfl, hidle, hperform, h⟩)

/-- What is observed of the `state` touches the labels only. -/
theorem observeState_eq (s : Program) (event : Bluetooth.Event Closure) :
    ∃ dashboard, observeState s event = { s with app := { s.app with dashboard } } := by
  unfold observeState
  cases sentState event with
  | none => exact ⟨s.app.dashboard, rfl⟩
  | some state => exact ⟨_, rfl⟩

/-- **What an input does**: the parts behind it and the call that it ends with. -/
inductive Performs (uikit : UIKit) (parts : Parts) :
    Input → Parts → Option (Call Closure) → Prop
  | display {event : Dashboard.Event} {dashboard : Dashboard} (hpage : ofPage event = true)
      (h : parts.dashboard.step event = some dashboard) :
    Performs uikit parts (.display event) { parts with dashboard } none
  | noCell (cell : ℕ) {row : ℕ} (hrow : EngineDataItem.ofRawValue row = none) :
    Performs uikit parts (.thresholdCellForRowAt cell row) parts none
  | cell (cell : ℕ) {row : ℕ} {dataItem : EngineDataItem}
      (hrow : EngineDataItem.ofRawValue row = some dataItem) :
    Performs uikit parts (.thresholdCellForRowAt cell row) { parts with
      thresholdManager := some parts.thresholdConfigManager.1
      thresholdCells := Function.update parts.thresholdCells cell
        (some (.ofDataItem dataItem (parts.thresholdConfigManager.1.getThreshold dataItem))) }
      parts.thresholdConfigManager.2
  | listDidAppear :
    Performs uikit parts .thresholdListDidAppear parts (some (.read .thresholdConfig .noOp))
  | noItem {row : ℕ} (hrow : EngineDataItem.ofRawValue row = none) :
    Performs uikit parts (.thresholdDidSelectRowAt row) parts none
  | noThreshold {row : ℕ} {dataItem : EngineDataItem}
      (hrow : EngineDataItem.ofRawValue row = some dataItem)
      (h : parts.thresholdConfigManager.1.getThreshold dataItem = none) :
    Performs uikit parts (.thresholdDidSelectRowAt row)
      { parts with thresholdManager := some parts.thresholdConfigManager.1 }
      parts.thresholdConfigManager.2
  | opensPage {row : ℕ} {dataItem : EngineDataItem} {threshold : Threshold}
      (hrow : EngineDataItem.ofRawValue row = some dataItem)
      (h : parts.thresholdConfigManager.1.getThreshold dataItem = some threshold) :
    Performs uikit parts (.thresholdDidSelectRowAt row) { parts with
      thresholdManager := some parts.thresholdConfigManager.1
      thresholdPages := parts.thresholdPages ++ [{ viewModel := some {
        dataItem
        editParameters := dataItem.editThresholdParameters
        currentValue := threshold } }] } parts.thresholdConfigManager.2
  | pageWillAppear {page : ℕ} {controller controller' : EditThresholdViewController}
      (h : parts.thresholdPages[page]? = some controller)
      (happear : controller.viewWillAppear uikit = some controller') :
    Performs uikit parts (.thresholdPageWillAppear page)
      { parts with thresholdPages := parts.thresholdPages.set page controller' } none
  | editsThreshold {page : ℕ} {type : ThresholdType} {event : EditThresholdView.Event}
      {controller controller' : EditThresholdViewController} (hevent : event.isSetUp = false)
      (h : parts.thresholdPages[page]? = some controller)
      (hedit : controller.edit uikit type event = some controller') :
    Performs uikit parts (.editThreshold page type event)
      { parts with thresholdPages := parts.thresholdPages.set page controller' } none
  | opensEditor : Performs uikit parts .openGaugeEditor { parts with
      gaugeEditors := Function.update parts.gaugeEditors parts.opened (some {})
      gaugeTables := Function.update parts.gaugeTables parts.opened
        (GaugeConfigViewController.numberOfRowsInSection ⟨some {}⟩)
      opened := parts.opened + 1 } (some (.read .layoutConfig (.load parts.opened)))
  | editsGauges {number : ℕ} {edit : GaugeConfigViewController.TableEdit}
      {editor editor' : GaugeConfigViewControllerViewModel}
      (h : parts.gaugeEditors number = some editor)
      (hedit : edit.perform (parts.gaugeTables number) editor = some editor') :
    Performs uikit parts (.editGauges number edit) { parts with
      gaugeEditors := Function.update parts.gaugeEditors number (some editor')
      gaugeTables := Function.update parts.gaugeTables number
        (GaugeConfigViewController.numberOfRowsInSection ⟨some editor'⟩) } none
  | reloadsTable {number : ℕ} {editor : GaugeConfigViewControllerViewModel}
      (h : parts.gaugeEditors number = some editor) :
    Performs uikit parts (.reloadGaugeTable number) { parts with
      gaugeTables := Function.update parts.gaugeTables number
        (GaugeConfigViewController.numberOfRowsInSection ⟨some editor⟩) } none
  | savesNothing {number : ℕ} {editor : GaugeConfigViewControllerViewModel}
      (h : parts.gaugeEditors number = some editor) (hc : editor.configHasChanged = false) :
    Performs uikit parts (.saveGauges number) parts none
  | saves {number : ℕ} {editor : GaugeConfigViewControllerViewModel}
      (h : parts.gaugeEditors number = some editor) (hc : editor.configHasChanged = true) :
    Performs uikit parts (.saveGauges number) { parts with
      gaugeEditors := Function.update parts.gaugeEditors number
        (some { editor with isSaving := true })
      layout := { gauges := editor.gauges, monitors := editor.monitors } }
      (some (.write (some (.ofBytes (GaugeLayoutConfigManager.constructData editor.gauges
        editor.monitors) fun _ => 0)) .layoutConfig (.saved number)))
  | releasesEditor (number : ℕ) : Performs uikit parts (.releaseGaugeEditor number)
      { parts with gaugeEditors := Function.update parts.gaugeEditors number none } none
  | shutdown : Performs uikit parts .shutdown parts (some (.writeValue none .shutdown false))

theorem perform_cases {input : Input} (h : parts.perform uikit input = some (parts', call)) :
    Performs uikit parts input parts' call := by
  cases input with
  | display event =>
    simp only [Parts.perform] at h
    split_ifs at h with hpage
    obtain ⟨dashboard, hdashboard, h⟩ := Option.map_eq_some_iff.1 h
    cases h
    exact .display hpage hdashboard
  | thresholdCellForRowAt cell row =>
    simp only [Parts.perform] at h
    cases hrow : EngineDataItem.ofRawValue row with
    | none =>
      rw [hrow] at h
      cases h
      exact .noCell cell hrow
    | some dataItem =>
      rw [hrow] at h
      cases h
      exact .cell cell hrow
  | thresholdListDidAppear =>
    cases h
    exact .listDidAppear
  | thresholdDidSelectRowAt row =>
    simp only [Parts.perform] at h
    cases hrow : EngineDataItem.ofRawValue row with
    | none =>
      rw [hrow] at h
      cases h
      exact .noItem hrow
    | some dataItem =>
      rw [hrow] at h
      cases hthreshold : parts.thresholdConfigManager.1.getThreshold dataItem with
      | none =>
        simp only [hthreshold] at h
        cases h
        exact .noThreshold hrow hthreshold
      | some threshold =>
        simp only [hthreshold] at h
        cases h
        exact .opensPage hrow hthreshold
  | thresholdPageWillAppear page =>
    obtain ⟨controller, hpage, h⟩ := Option.bind_eq_some_iff.1 h
    obtain ⟨controller', happear, h⟩ := Option.bind_eq_some_iff.1 h
    cases h
    exact .pageWillAppear hpage happear
  | editThreshold page type event =>
    simp only [Parts.perform] at h
    split_ifs at h with hevent
    obtain ⟨controller, hpage, h⟩ := Option.bind_eq_some_iff.1 h
    obtain ⟨controller', hedit, h⟩ := Option.bind_eq_some_iff.1 h
    cases h
    exact .editsThreshold (by simpa using hevent) hpage hedit
  | openGaugeEditor =>
    cases h
    exact .opensEditor
  | editGauges number edit =>
    obtain ⟨editor, heditor, h⟩ := Option.bind_eq_some_iff.1 h
    obtain ⟨editor', hedit, h⟩ := Option.bind_eq_some_iff.1 h
    cases h
    exact .editsGauges heditor hedit
  | reloadGaugeTable number =>
    obtain ⟨editor, heditor, h⟩ := Option.bind_eq_some_iff.1 h
    cases h
    exact .reloadsTable heditor
  | saveGauges number =>
    obtain ⟨editor, heditor, h⟩ := Option.map_eq_some_iff.1 h
    cases hc : editor.configHasChanged with
    | false =>
      rw [Parts.save, GaugeConfigViewControllerViewModel.save_of_not_changed hc] at h
      cases h
      exact .savesNothing heditor hc
    | true =>
      rw [Parts.save, GaugeConfigViewControllerViewModel.save_of_changed hc] at h
      cases h
      exact .saves heditor hc
  | releaseGaugeEditor number =>
    cases h
    exact .releasesEditor number
  | shutdown =>
    cases h
    exact .shutdown

/-- The calls of the Bluetooth manager that inputs end with. -/
inductive Asked : Call Closure → Prop
  | initializeThresholds : Asked (.read .thresholdConfig .initializeThresholds)
  | noOp : Asked (.read .thresholdConfig .noOp)
  | load (editor : ℕ) : Asked (.read .layoutConfig (.load editor))
  | save (gauges monitors : List EngineDataItem) (editor : ℕ) :
    Asked (.write (some (.ofBytes (GaugeLayoutConfigManager.constructData gauges monitors)
      fun _ => 0)) .layoutConfig (.saved editor))
  | shutdown : Asked (.writeValue none .shutdown false)

/-- The threshold manager reads the thresholds as it is made, and asks for nothing later. -/
theorem thresholdConfigManager_call {call : Call Closure}
    (h : parts.thresholdConfigManager.2 = some call) :
    parts.thresholdManager = none ∧ call = .read .thresholdConfig .initializeThresholds := by
  unfold Parts.thresholdConfigManager at h
  cases hm : parts.thresholdManager with
  | some manager =>
    rw [hm] at h
    cases h
  | none =>
    rw [hm] at h
    exact ⟨rfl, (Option.some.inj h).symm⟩

theorem asked_thresholdConfigManager {call : Call Closure}
    (h : parts.thresholdConfigManager.2 = some call) : Asked call := by
  obtain ⟨-, rfl⟩ := thresholdConfigManager_call h
  exact .initializeThresholds

theorem asked_of_perform {input : Input} {call : Call Closure}
    (h : parts.perform uikit input = some (parts', some call)) : Asked call := by
  generalize hcall : some call = called at h
  cases perform_cases h with
  | cell cell hrow => exact asked_thresholdConfigManager hcall.symm
  | noThreshold hrow hthreshold => exact asked_thresholdConfigManager hcall.symm
  | opensPage hrow hthreshold => exact asked_thresholdConfigManager hcall.symm
  | listDidAppear =>
    cases hcall
    exact .noOp
  | opensEditor =>
    cases hcall
    exact .load _
  | saves heditor hc =>
    cases hcall
    exact .save _ _ _
  | shutdown =>
    cases hcall
    exact .shutdown
  | _ => cases hcall

/-! ## What every event keeps -/

/-- The closures that are handed over with reads of a characteristic. -/
inductive ReadBy : Characteristics → Closure → Prop
  | initializeThresholds : ReadBy .thresholdConfig .initializeThresholds
  | noOp : ReadBy .thresholdConfig .noOp
  | load (editor : ℕ) : ReadBy .layoutConfig (.load editor)

/-- What the manager is given: the handlers of saves, the listener to the engine data, and the
closures of reads with the reads of their characteristics. -/
def contract : Contract Closure where
  handler k := k = .engineData ∨ ∃ editor, k = .saved editor
  read := ReadBy
  written _ _ := True
  value _ _ := True

/-- What every event keeps of the manager. -/
structure Settled (s : Program) : Prop where
  held : s.Held contract
  accounted : s.Accounted (fun k => ∀ editor, k ≠ .saved editor)
    fun c k => c = .layoutConfig ∧ ∃ editor, k = .saved editor
  listeners : s.manager.listeners = launch.manager.listeners
  notified : s.Notified

/-- What an event brings meets all that is asked of what the manager is given. -/
structure Brings (event : Bluetooth.Event Closure) : Prop where
  meets : contract.Meets event
  gives : event.Gives (fun k => ∀ editor, k ≠ .saved editor)
    fun c k => c = .layoutConfig ∧ ∃ editor, k = .saved editor
  carriesHandler : event.CarriesHandler

theorem brings_subscribe : Brings (.call (.subscribe .engineData .engineData)) := by
  refine ⟨.inl rfl, ⟨?_, by simp [Event.givenWrite]⟩, trivial⟩
  rintro k hk editor rfl
  cases hk

theorem brings_of_not_call (h : isCall event = false) : Brings event := by
  have hgives : event.givenRead = none ∧ event.givenWrite = none := by
    cases event with
    | call call => cases h
    | _ => exact ⟨rfl, rfl⟩
  refine ⟨?_, ⟨by simp [hgives.1], by simp [hgives.2]⟩, ?_⟩
  · cases event with
    | call call => cases h
    | didUpdateValueFor ch value error =>
      cases error with
      | none => exact fun _ _ => trivial
      | some error => trivial
    | _ => trivial
  · cases event with
    | call call => cases h
    | _ => trivial

theorem Asked.brings {call : Call Closure} (h : Asked call) : Brings (.call call) := by
  cases h with
  | initializeThresholds =>
    exact ⟨.initializeThresholds, ⟨by simp [Event.givenRead], by simp [Event.givenWrite]⟩, trivial⟩
  | noOp => exact ⟨.noOp, ⟨by simp [Event.givenRead], by simp [Event.givenWrite]⟩, trivial⟩
  | load editor =>
    exact ⟨.load editor, ⟨by simp [Event.givenRead], by simp [Event.givenWrite]⟩, trivial⟩
  | save gauges monitors editor =>
    refine ⟨⟨.inr ⟨editor, rfl⟩, trivial⟩, ⟨by simp [Event.givenRead], fun c k hk => ?_⟩, trivial⟩
    obtain ⟨rfl, rfl⟩ := Prod.ext_iff.1 (Option.some.inj hk)
    exact ⟨rfl, editor, rfl⟩
  | shutdown =>
    exact ⟨trivial, ⟨by simp [Event.givenRead], by simp [Event.givenWrite]⟩, rfl⟩

theorem settled_launch : Settled launch := by
  have hsubscribe : System.step CBUUID.uuidString Closure.invoke { app := {} }
      (.call (.subscribe .engineData .engineData)) = some launch := rfl
  exact ⟨(System.held_step (System.held_of_app contract {}) brings_subscribe.meets hsubscribe).1,
    System.accounted_step (System.accounted_of_app _ _ {}) brings_subscribe.gives trivial
      hsubscribe, rfl, fun _ _ _ hh => by cases hh⟩

theorem Settled.withApp (hs : Settled s) (parts : Parts) : Settled { s with app := parts } :=
  ⟨hs.held.of_eq rfl rfl rfl (fun _ h => h) hs.held.running,
    ⟨hs.accounted.discovered.of_eq rfl rfl rfl,
      ⟨hs.accounted.holds.listeners, hs.accounted.holds.reads, hs.accounted.holds.rest⟩,
      hs.accounted.pending, hs.accounted.handled, hs.accounted.acknowledging⟩,
    hs.listeners, hs.notified⟩

theorem queue_listeners (hs : Settled s) (c : Characteristics) :
    queue s.manager.listeners c = if c = .engineData then [.engineData] else [] := by
  rw [hs.listeners]
  exact queue_enqueue (fun _ => none) Characteristics.engineData Closure.engineData c

/-- A step keeps it, where its event brings what the manager is given. -/
theorem Settled.step_system (hs : Settled s) (hbrings : Brings event)
    (hsubscribe : ∀ c k, event ≠ .call (.subscribe c k))
    (h : System.step describe Closure.invoke s event = some u) : Settled u := by
  have hone : ∀ c, (queue s.manager.listeners c).length ≤ 1 := by
    intro c
    rw [queue_listeners hs]
    split_ifs
    · exact le_rfl
    · exact Nat.zero_le 1
  obtain ⟨hlisteners, hnotified⟩ := System.notified_step hs.notified hone hsubscribe h
  exact ⟨(System.held_step hs.held hbrings.meets h).1,
    System.accounted_step hs.accounted hbrings.gives hbrings.carriesHandler h,
    hlisteners.trans hs.listeners, hnotified⟩

theorem Settled.step_bluetooth (hs : Settled s) (hcall : isCall event = false)
    (h : System.step describe Closure.invoke s event = some u) : Settled u := by
  refine hs.step_system (brings_of_not_call hcall) ?_ h
  rintro c k rfl
  cases hcall

theorem Settled.step_asked (hs : Settled s) {call : Call Closure} (hcall : Asked call)
    (h : System.step describe Closure.invoke s (.call call) = some u) : Settled u := by
  refine hs.step_system hcall.brings (fun c k he => ?_) h
  obtain rfl := Bluetooth.Event.call.inj he
  cases hcall

theorem settled_step (hs : Settled s) (h : step uikit describe s e = some t) : Settled t := by
  rcases step_cases h with ⟨event, u, -, hcall, hu, rfl⟩ | ⟨input, parts, -, -, -, rfl⟩ |
    ⟨input, parts, call, -, -, hperform, h⟩
  · obtain ⟨dashboard, ht⟩ := observeState_eq u event
    rw [ht]
    exact (hs.step_bluetooth hcall hu).withApp _
  · exact hs.withApp parts
  · exact (hs.withApp parts).step_asked (asked_of_perform hperform) h

theorem settled_run {events : List Event}
    (h : Run (ofPartial (step uikit describe)) launch events s) : Settled s :=
  h.invariant settled_launch fun _ _ _ hs ht => settled_step hs ht

/-- The values that the events of a run bring are all that the manager calls closures with. -/
theorem valued_run {P : CBUUID → Option Data → Prop} {events : List Event}
    (h : Run (ofPartial (step uikit describe)) launch events s) (hnone : ∀ uuid, P uuid none)
    (hbrings : ∀ event, .bluetooth event ∈ events →
      ∀ brought ∈ event.value, P brought.1 brought.2) : System.Valued P s := by
  induction h with
  | nil => exact ⟨fun ch => hnone ch.uuid, fun _ hh => (by cases hh)⟩
  | snoc hrun hs ih =>
    have ih := ih fun event hmem => hbrings event (List.mem_append_left _ hmem)
    rcases step_cases hs with ⟨event, u, rfl, -, hu, rfl⟩ | ⟨input, parts, rfl, -, -, rfl⟩ |
      ⟨input, parts, call, rfl, -, -, h⟩
    · obtain ⟨dashboard, ht⟩ := observeState_eq u event
      rw [ht]
      exact (System.valued_step ih (hbrings event (by simp)) hu).withApp _
    · exact ih.withApp parts
    · exact System.valued_step (ih.withApp parts) (fun _ hvalue => by cases hvalue) h

/-! ## The closure that an event calls -/

/-- The closure that an event calls, with the value that it is called with. -/
def called (uikit : UIKit) (describe : CBUUID → String) (s : Program) :
    Event → Option (Closure × Option Data)
  | .bluetooth event => s.entered describe event
  | .input input => do
    let (_, call) ← s.app.perform uikit input
    let call ← call
    s.entered describe (.call call)

/-- A closure other than that of the engine data is called for the characteristic that it reads. -/
theorem readBy_of_calledFor (hs : Settled s) {c : Characteristics} {k : Closure}
    (hk : k ≠ .engineData) (hread : ∀ c k, event = .call (.read c k) → ReadBy c k)
    (h : s.CalledFor event c k) : ReadBy c k := by
  cases h with
  | listener h =>
    rw [queue_listeners hs] at h
    split_ifs at h
    · exact absurd (List.mem_singleton.1 h) hk
    · cases h
  | notified h hmem =>
    rw [hs.notified _ _ _ h] at hmem
    cases hmem
  | queued h => exact hs.held.reads c k h
  | answered h hmem => exact (hs.held.running _ h).2 k hmem
  | read h => exact hread c k h

/-- The first of the queued reads of a characteristic is one of it. -/
theorem readBy_head (hs : Settled s) {c : Characteristics} {k : Closure} {value v : Option Data}
    (h : (s.queuedReads c).head?.map (·, value) = some (k, v)) : ReadBy c k := by
  obtain ⟨k', hk', hkv⟩ := Option.map_eq_some_iff.1 h
  obtain ⟨rfl, -⟩ := Prod.ext_iff.1 hkv
  exact hs.held.reads c k' (List.mem_of_mem_head? hk')

/-- An update of the engine data calls its listener. -/
theorem entered_engineData (hs : Settled s) {ch : CBCharacteristic} {value : Option Data}
    (hch : System.updatedCharacteristic ch.uuid = some .engineData) :
    s.entered describe (.didUpdateValueFor ch value none) = some (.engineData, value) := by
  simp only [System.entered, hch, Option.bind_some, queue_listeners hs, if_true]
  rfl

/-- **The closure that any other event of Bluetooth calls** is one of a read, or the handler of a
save, which an acknowledgement is routed to. -/
theorem entered_cases (hs : Settled s) (hcall : isCall event = false)
    (hevent : ∀ ch value, event = .didUpdateValueFor ch value none →
      System.updatedCharacteristic ch.uuid ≠ some .engineData) {k : Closure} {value : Option Data}
    (h : s.entered describe event = some (k, value)) :
    (∃ c, ReadBy c k) ∨ ∃ ch error c editor, event = .didWriteValueFor ch error ∧
      getCharacteristicByUUID (describe ch.uuid) = some c ∧ k = .saved editor := by
  cases event with
  | call call => cases hcall
  | callbackReturned =>
    refine .inl ?_
    cases hn : s.nested with
    | succ nested =>
      simp only [System.entered, hn] at h
      cases h
    | zero =>
      cases hh : s.handler with
      | none =>
        simp only [System.entered, hn, hh] at h
        cases h
      | some handler =>
        cases handler with
        | notifying c v rest =>
          obtain rfl := hs.notified c v rest hh
          simp only [System.entered, hn, hh] at h
          exact ⟨c, readBy_head hs h⟩
        | answering c v rest =>
          simp only [System.entered, hn, hh] at h
          obtain ⟨k', hk', hkv⟩ := Option.map_eq_some_iff.1 h
          obtain ⟨rfl, -⟩ := Prod.ext_iff.1 hkv
          exact ⟨c, (hs.held.running _ hh).2 k' (List.mem_of_mem_head? hk')⟩
        | acknowledging c =>
          simp only [System.entered, hn, hh] at h
          cases h
  | didUpdateValueFor ch v error =>
    cases error with
    | some error => cases h
    | none =>
      obtain ⟨c, hc, h⟩ := Option.bind_eq_some_iff.1 h
      have hne : c ≠ .engineData := fun he => hevent ch v rfl (he ▸ hc)
      rw [queue_listeners hs, if_neg hne] at h
      exact .inl ⟨c, readBy_head hs h⟩
  | didWriteValueFor ch error =>
    obtain ⟨c, hc, h⟩ := Option.bind_eq_some_iff.1 h
    obtain ⟨k', hk', hkv⟩ := Option.map_eq_some_iff.1 h
    obtain ⟨rfl, -⟩ := Prod.ext_iff.1 hkv
    obtain ⟨-, editor, hk⟩ := hs.accounted.pending c k' (List.mem_of_mem_head? hk')
    exact .inr ⟨ch, error, c, editor, rfl, hc, hk⟩
  | _ => cases h

/-- The call that an input ends with calls no closure but that of a read, which is answered at
once. -/
theorem readBy_of_asked {call : Call Closure} (hcall : Asked call) {k : Closure}
    {value : Option Data} (h : s.entered describe (.call call) = some (k, value)) :
    ∃ c, ReadBy c k := by
  have hread : ∀ c k', ReadBy c k' → call = .read c k' → ∃ c, ReadBy c k := by
    rintro c k' hk rfl
    obtain ⟨answer, -, hkv⟩ := Option.map_eq_some_iff.1 h
    obtain ⟨rfl, -⟩ := Prod.ext_iff.1 hkv
    exact ⟨c, hk⟩
  cases hcall with
  | initializeThresholds => exact hread _ _ .initializeThresholds rfl
  | noOp => exact hread _ _ .noOp rfl
  | load editor => exact hread _ _ (.load editor) rfl
  | save gauges monitors editor => cases h
  | shutdown => cases h

/-- **What an event does to the parts**: a closure is called at most, behind what an input does,
and the state is shown. -/
theorem parts_cases (h : step uikit describe s e = some t) :
    (∃ event called parts dashboard, e = .bluetooth event ∧ s.entered describe event = called ∧
      System.appAfter Closure.invoke s.app called = some parts ∧
      t.app = { parts with dashboard }) ∨
    (∃ input call called parts, e = .input input ∧ Performs uikit s.app input parts call ∧
      System.appAfter Closure.invoke parts called = some t.app) := by
  rcases step_cases h with ⟨event, u, rfl, -, hu, rfl⟩ | ⟨input, parts, rfl, -, hperform, rfl⟩ |
    ⟨input, parts, call, rfl, -, hperform, h⟩
  · obtain ⟨dashboard, ht⟩ := observeState_eq u event
    exact .inl ⟨event, _, u.app, dashboard, rfl, rfl, System.app_of_step hu, by rw [ht]⟩
  · exact .inr ⟨input, none, none, parts, rfl, perform_cases hperform, rfl⟩
  · exact .inr ⟨input, some call, _, parts, rfl, perform_cases hperform, System.app_of_step h⟩

end

end Rx7.Program
