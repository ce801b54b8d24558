import Rx7.Bluetooth.Writes
import Rx7.Editor.Layout
import Rx7.Layout.Codec

/-!
# The gauge editor over the layout manager and the Bluetooth manager

The three components together: the view model of the open editor and the layout manager are what
the `System` of the Bluetooth manager has as the rest of the app (`Editing`). The closures that the
editor's requests carry are `Closure.load` and `Closure.saved`; those of the other parts of the app
do not touch it (`Closure.other`). `App.step` is one event: of Bluetooth, with the calls of those
parts, or of the user, who opens the editor, edits and saves.

`step_cases` reduces each event to a change of the app followed by at most one step of the system,
and `Managed` is what all of them keep: in particular the writes of the layout stay an `Outbox`,
none of whose acknowledgements is missed where these are routed back. `acknowledgement_cases` says
what an acknowledgement does to the editor.
-/

namespace Rx7

open Bluetooth Transition

/-- The closures that are handed to the Bluetooth manager. -/
inductive Closure
  | load
  | saved
  | other (identifier : ℕ)
  deriving DecidableEq

/-- The editor and the layout manager, with a record of what the completion handlers of saves were
told. -/
structure Editing where
  layout : GaugeLayoutConfigManager := {}
  editor : GaugeConfigViewControllerViewModel := {}
  isOpen : Bool := false
  reports : List Bool := []

/-- What the handler of a save's acknowledgement does: `completionHandler?(true)`. -/
def Editing.reportSaved (app : Editing) : Editing :=
  { app with
    editor := app.editor.saveCompleted true
    reports := app.reports ++ [true] }

/-- What the closures do when they are called with a characteristic's value. -/
def Closure.invoke : Closure → Option Data → Editing → Option Editing
  | .load, none, app => some app
  | .load, some data, app =>
    match app.layout.parseResponse data with
    | .ok layout => some { app with
        layout
        editor := app.editor.loadCompleted layout.gauges layout.monitors }
    | .error _ => none
  | .saved, _, app => some app.reportSaved
  | .other _, _, app => some app

abbrev App := System Closure Editing

inductive AppEvent
  | bluetooth (event : Bluetooth.Event Closure)
  | openEditor
  | edit (edit : LayoutEdit)
  | save

/-- The event is not the editor's: its closures are those of other parts of the app, where every
write with response carries a handler, too. -/
def isForeign : Bluetooth.Event Closure → Bool
  | .call (.read _ (.other _)) | .call (.subscribe _ (.other _)) | .call (.write _ _ (.other _)) =>
    true
  | .call (.writeValue _ _ withResponse) => !withResponse
  | .call _ => false
  | _ => true

namespace App

/-- Let the rest of the app be another. -/
def withApp (s : App) (app : Editing) : App := { s with app }

/-- `GaugeLayoutConfigManager.readGauges`, for the editor's `init`. -/
def readGauges (s : App) : Option App := s.read Closure.invoke .layoutConfig .load

/-- `GaugeLayoutConfigManager.setGauges`, for the editor's `save`. -/
def setGauges (s : App) (gauges monitors : List EngineDataItem) : App :=
  let rawData := GaugeLayoutConfigManager.constructData gauges monitors
  (s.withApp { s.app with layout := { gauges, monitors } }).write
    (some (.ofBytes rawData fun _ => 0)) .layoutConfig .saved

/-- `GaugeConfigViewControllerViewModel.save`. -/
def save (s : App) : App :=
  match s.app.editor.save with
  | (editor, none) => s.withApp { s.app with editor }
  | (editor, some (gauges, monitors)) =>
    setGauges (s.withApp { s.app with editor }) gauges monitors

/-- One event. The user's come when no closure is running, and the editor opens once. -/
def step (describe : CBUUID → String) (s : App) : AppEvent → Option App
  | .bluetooth event =>
    if isForeign event then System.step describe Closure.invoke s event else none
  | .openEditor =>
    if s.Idle ∧ s.app.isOpen = false then
      readGauges (s.withApp { s.app with isOpen := true })
    else none
  | .edit edit =>
    if s.Idle ∧ s.app.isOpen = true then
      match s.app.editor.perform edit with
      | .ok editor => some (s.withApp { s.app with editor })
      | .error _ => none
    else none
  | .save => if s.Idle ∧ s.app.isOpen = true then some s.save else none

/-! ## What an event does -/

section

variable {describe : CBUUID → String} {s t : App} {e : AppEvent}

/-- The rest of the app when a save begins. -/
def saving (app : Editing) : Editing :=
  { app with
    layout := { gauges := app.editor.gauges, monitors := app.editor.monitors }
    editor := { app.editor with isSaving := true } }

/-- **An event is a change of the app and at most one step of the system.** -/
theorem step_cases (h : step describe s e = some t) :
    (∃ event, e = .bluetooth event ∧ isForeign event = true ∧
      System.step describe Closure.invoke s event = some t) ∨
    (e = .openEditor ∧ System.step describe Closure.invoke
      (s.withApp { s.app with isOpen := true }) (.call (.read .layoutConfig .load)) = some t) ∨
    (∃ edit editor, e = .edit edit ∧ s.app.editor.perform edit = .ok editor ∧
      t = s.withApp { s.app with editor }) ∨
    (e = .save ∧ s.app.editor.configHasChanged = false ∧ t = s) ∨
    (∃ data, e = .save ∧ s.app.editor.configHasChanged = true ∧
      t = (s.withApp (saving s.app)).write data .layoutConfig .saved) := by
  cases e with
  | bluetooth event =>
    simp only [step] at h
    split_ifs at h with hf
    exact .inl ⟨event, rfl, hf, h⟩
  | openEditor =>
    simp only [step] at h
    split_ifs at h
    exact .inr (.inl ⟨rfl, h⟩)
  | edit edit =>
    simp only [step] at h
    split_ifs at h
    split at h
    · rename_i editor heditor
      exact .inr (.inr (.inl ⟨edit, editor, rfl, heditor, (Option.some.inj h).symm⟩))
    · cases h
  | save =>
    simp only [step] at h
    split_ifs at h
    obtain rfl := Option.some.inj h
    cases hc : s.app.editor.configHasChanged with
    | false =>
      refine .inr (.inr (.inr (.inl ⟨rfl, rfl, ?_⟩)))
      simp only [save, GaugeConfigViewControllerViewModel.save_of_not_changed hc]
      rfl
    | true =>
      refine .inr (.inr (.inr (.inr ⟨some (.ofBytes (GaugeLayoutConfigManager.constructData
        s.app.editor.gauges s.app.editor.monitors) fun _ => 0), rfl, rfl, ?_⟩)))
      simp only [save, GaugeConfigViewControllerViewModel.save_of_changed hc]
      rfl

/-! ## What every event keeps -/

/-- The closures of the reading side: any but a save's. -/
def ReadClosure (closure : Closure) : Prop := closure ≠ .saved

/-- A closure of another part of the app. -/
def OtherClosure (closure : Closure) : Prop := ∃ identifier, closure = .other identifier

/-- The handlers of writes: a save's, for the layout, or another part's. -/
def WriteClosure (c : Characteristics) (closure : Closure) : Prop :=
  closure = .saved ∧ c = .layoutConfig ∨ OtherClosure closure

/-- What every event keeps: the writes of the layout are an outbox, of which an acknowledgement
is missed only if they are not routed back. -/
structure Managed (describe : CBUUID → String) (s : App) : Prop where
  accounted : s.Accounted ReadClosure WriteClosure
  outbox : ∃ labels, Run Outbox.Step {} labels (s.outbox .layoutConfig) ∧
    ∀ label ∈ labels, label = some false → routed describe .layoutConfig = false

theorem managed_init (app : Editing) : Managed describe { app } :=
  ⟨System.accounted_of_app _ _ app, [], .nil, by simp⟩

theorem Managed.withApp (hs : Managed describe s) (app : Editing) :
    Managed describe (s.withApp app) :=
  ⟨⟨hs.accounted.discovered.of_eq rfl rfl rfl,
    ⟨hs.accounted.holds.listeners, hs.accounted.holds.reads, hs.accounted.holds.rest⟩,
    hs.accounted.pending, hs.accounted.handled, hs.accounted.acknowledging⟩, hs.outbox⟩

theorem gives_load (W : Characteristics → Closure → Prop) :
    Event.Gives ReadClosure W (.call (.read .layoutConfig .load)) :=
  ⟨by simp [Event.givenRead, ReadClosure], by simp [Event.givenWrite]⟩

theorem gives_of_isForeign {event : Bluetooth.Event Closure} (h : isForeign event = true) :
    event.Gives ReadClosure (fun _ => OtherClosure) ∧ event.CarriesHandler := by
  cases event with
  | call call =>
    cases call with
    | read c closure | subscribe c closure =>
      cases closure with
      | other identifier =>
        exact ⟨⟨by simp [Event.givenRead, ReadClosure], by simp [Event.givenWrite]⟩, trivial⟩
      | load | saved => cases h
    | write data c handler =>
      cases handler with
      | other identifier =>
        refine ⟨⟨by simp [Event.givenRead], fun c' k hk => ?_⟩, trivial⟩
        obtain ⟨rfl, rfl⟩ := Prod.ext_iff.1 (Option.some.inj hk)
        exact ⟨identifier, rfl⟩
      | load | saved => cases h
    | writeValue data c withResponse =>
      exact ⟨⟨by simp [Event.givenRead], by simp [Event.givenWrite]⟩,
        by simpa [isForeign, Event.CarriesHandler] using h⟩
  | _ => exact ⟨⟨by simp [Event.givenRead], by simp [Event.givenWrite]⟩, trivial⟩

variable (hread : ∀ c : Characteristics, CBUUID.ofString (describe c.asCBUUID) = c.asCBUUID)

include hread in
/-- A step of the system keeps it. -/
theorem Managed.step_system (hs : Managed describe s) {event : Bluetooth.Event Closure}
    (hg : event.Gives ReadClosure WriteClosure) (hc : event.CarriesHandler)
    (h : System.step describe Closure.invoke s event = some t) : Managed describe t := by
  obtain ⟨labels, hrun, hlabels⟩ := hs.outbox
  refine ⟨System.accounted_step hs.accounted hg hc h, _,
    hrun.snoc (System.outbox_step hread hs.accounted hg hc h .layoutConfig), fun label hl => ?_⟩
  rcases List.mem_append.1 hl with hl | hl
  · exact hlabels label hl
  · rintro rfl
    have hlabel := (List.mem_singleton.1 hl).symm
    unfold acknowledgementOf at hlabel
    split at hlabel
    · split_ifs at hlabel
      exact Option.some.inj hlabel
    · cases hlabel

include hread in
theorem managed_step (hs : Managed describe s) (h : step describe s e = some t) :
    Managed describe t := by
  rcases step_cases h with ⟨event, -, hf, h⟩ | ⟨-, h⟩ | ⟨edit, editor, -, -, rfl⟩ | ⟨-, -, rfl⟩ |
    ⟨data, -, -, rfl⟩
  · obtain ⟨hg, hc⟩ := gives_of_isForeign hf
    exact hs.step_system hread (hg.mono fun _ _ => .inr) hc h
  · exact (hs.withApp _).step_system hread (gives_load _) trivial h
  · exact hs.withApp _
  · exact hs
  · have hg : Event.Gives ReadClosure WriteClosure (.call (.write data .layoutConfig .saved)) := by
      refine ⟨by simp [Event.givenRead], fun c k hk => ?_⟩
      obtain ⟨rfl, rfl⟩ := Prod.ext_iff.1 (Option.some.inj hk)
      exact .inl ⟨rfl, rfl⟩
    have hwrite : System.step describe Closure.invoke (s.withApp (saving s.app))
        (.call (.write data .layoutConfig .saved)) =
          some ((s.withApp (saving s.app)).write data .layoutConfig .saved) := rfl
    exact (hs.withApp _).step_system hread hg trivial hwrite

/-! ## Acknowledgements -/

/-- While acknowledgements of the layout are routed back, the handlers queued for it are those of
its unacknowledged writes. -/
theorem Managed.pendingHandlers_eq (hs : Managed describe s)
    (hrouted : routed describe .layoutConfig = true) (hidle : s.Idle) :
    s.pendingHandlers .layoutConfig = s.unacknowledgedHandlers .layoutConfig := by
  obtain ⟨labels, hrun, hlabels⟩ := hs.outbox
  have hnone : ∀ label ∈ labels, label ≠ some false := fun label hl he => by
    have hmissed := hlabels label hl he
    rw [hrouted] at hmissed
    cases hmissed
  have hwaiting := Outbox.inFlight_eq_waiting_of_run hrun hnone
  exact (hwaiting.trans (System.waitingHandlers_of_idle hidle)).symm

/-- Where they are, the handler at the head of the queue is that of the write acknowledged next. -/
theorem Managed.head_pendingHandlers (hs : Managed describe s)
    (hrouted : routed describe .layoutConfig = true) (hidle : s.Idle) {ch : CBCharacteristic}
    {w : PendingWrite Closure} {closure : Closure} (hw : s.acknowledgedWrite ch.uuid = some w)
    (hc : ch.uuid = Characteristics.layoutConfig.asCBUUID) (hclosure : w.handler = some closure) :
    ∃ rest, s.pendingHandlers .layoutConfig = closure :: rest := by
  obtain ⟨k, hk, hfirst⟩ := System.unacknowledgedHandlers_acknowledge hs.accounted hw none hc
  obtain rfl := Option.some.inj (hk.symm.trans hclosure)
  exact ⟨_, (hs.pendingHandlers_eq hrouted hidle).trans hfirst⟩

theorem invoke_writeClosure {c : Characteristics} {closure : Closure} {value : Option Data}
    {app app' : Editing} (hc : WriteClosure c closure)
    (h : closure.invoke value app = some app') :
    app' = if closure = .saved then app.reportSaved else app := by
  rcases hc with ⟨rfl, -⟩ | ⟨identifier, rfl⟩
  · exact (Option.some.inj h).symm
  · simpa using (Option.some.inj h).symm

/-- A save's handler is that of a write of the layout. -/
theorem eq_layoutConfig_of_saved {c : Characteristics} {closure : Closure}
    (hc : WriteClosure c closure) (h : closure = .saved) : c = .layoutConfig := by
  rcases hc with ⟨-, hc⟩ | ⟨identifier, hc⟩
  · exact hc
  · rw [h] at hc
    cases hc

include hread in
/-- **What an acknowledgement does to the editor.** That of a save's write reports the save as
successful, with or without an error, if it is routed back; no other reports anything. -/
theorem acknowledgement_cases (hs : Managed describe s) {ch : CBCharacteristic}
    {error : Option Bluetooth.Error} (hidle : s.Idle)
    (hch : (s.acknowledgedWrite ch.uuid).map (·.characteristic) = some ch)
    (h : System.didWriteValueFor describe Closure.invoke s ch error = some t) :
    ∃ w closure, s.acknowledgedWrite ch.uuid = some w ∧ w.handler = some closure ∧
      (closure = .saved → ch.uuid = Characteristics.layoutConfig.asCBUUID) ∧
      t.unacknowledged = (s.acknowledge ch error).unacknowledged ∧
      t.app = if closure = .saved ∧ routed describe .layoutConfig = true then s.app.reportSaved
        else s.app := by
  obtain ⟨w, hw, rfl⟩ := Option.map_eq_some_iff.1 hch
  obtain ⟨-, before, behind, hsplit, -⟩ := System.acknowledgedWrite_split hw
  obtain ⟨c, closure, huuid, hclosure, hwrite⟩ := hs.accounted.handled w (by simp [hsplit])
  refine ⟨w, closure, hw, hclosure, fun hsaved => ?_, ?_⟩
  · rw [huuid, eq_layoutConfig_of_saved hwrite hsaved]
  rcases System.didWriteValueFor_cases h with ⟨rfl, hnone⟩ | ⟨c', callback, rest, hc', hqueue, h⟩
  · refine ⟨rfl, (if_neg fun ⟨hsaved, hrouted⟩ => ?_).symm⟩
    obtain rfl := eq_layoutConfig_of_saved hwrite hsaved
    obtain ⟨rest, hrest⟩ := hs.head_pendingHandlers hrouted hidle hw huuid hclosure
    have hroute :
        getCharacteristicByUUID (describe w.characteristic.uuid) = some .layoutConfig := by
      rw [huuid]
      exact of_decide_eq_true hrouted
    exact List.cons_ne_nil _ _ (hrest.symm.trans (hnone _ hroute))
  · obtain ⟨app, happ, ht⟩ := System.enter_eq_some h
    obtain rfl : c' = c := Characteristics.asCBUUID_injective (by
      rw [asCBUUID_of_getCharacteristicByUUID hc', huuid, hread])
    have hpending : s.pendingHandlers c' = callback :: rest := Queues.queue_of_some hqueue
    have hcallback : WriteClosure c' callback :=
      hs.accounted.pending c' callback (by simp [hpending])
    have happ' : t.app = if callback = .saved then s.app.reportSaved else s.app := by
      rw [ht]
      exact invoke_writeClosure hcallback happ
    refine ⟨by rw [ht]; rfl, happ'.trans ?_⟩
    by_cases hc : c' = .layoutConfig
    · subst hc
      have hrouted : routed describe .layoutConfig = true := by
        rw [huuid] at hc'
        exact decide_eq_true hc'
      -- Routed back, the handler called is that of the acknowledged write.
      obtain ⟨rest', hrest⟩ := hs.head_pendingHandlers hrouted hidle hw huuid hclosure
      obtain rfl : callback = closure := (List.cons.inj (hpending.symm.trans hrest)).1
      simp [hrouted]
    · rw [if_neg fun h => hc (eq_layoutConfig_of_saved hcallback h),
        if_neg fun h => hc (eq_layoutConfig_of_saved hwrite h.1)]

end

end App

end Rx7
