import Rx7.Bluetooth.Calls
import Rx7.Display.Dashboard
import Rx7.Editor.Table
import Rx7.Layout.Codec
import Rx7.Threshold.Editor

/-!
# The program

The app as it is launched, in one system: the Bluetooth manager and the engine state, made by the
app delegate, and what the pages make when the user comes to them, which is the threshold manager
and any number of gauge editors over the layout manager. The remote database is switched off.

`Closure` has the closures that these hand to the Bluetooth manager; none of them calls it again.
`Parts` is what they change, and `Program` the system over both. An event of the program is one of
Bluetooth, with what is observed of the `state` that it sends, or an `Input`, which comes when no
closure is running, changes the parts and ends with a call of the Bluetooth manager at most
(`perform`). The steppers of the pages are UIKit's, over which all this is stated.
-/

namespace Rx7

open Bluetooth Transition

namespace Program

/-- The closures that are handed to the Bluetooth manager. The editors are numbered. -/
inductive Closure
  | engineData
  | initializeThresholds
  | noOp
  | load (editor : ℕ)
  | saved (editor : ℕ)
  deriving DecidableEq

/-- The rest of the app. The threshold manager calls the handlers of `getThreshold` at once, so that
it holds none. -/
structure Parts where
  dashboard : Dashboard := {}
  thresholdManager : Option (ThresholdConfigManager Empty) := none
  /-- The cells of the list of thresholds. -/
  thresholdCells : ℕ → Option ThresholdConfigTableViewCellViewModel := fun _ => none
  /-- The pages opened from that list. -/
  thresholdPages : List EditThresholdViewController := []
  layout : GaugeLayoutConfigManager := {}
  /-- The view models of the editors, while they are alive. -/
  gaugeEditors : ℕ → Option GaugeConfigViewControllerViewModel := fun _ => none
  /-- The rows of the sections, as the table of an editor counted them last. -/
  gaugeTables : ℕ → ℕ → ℕ := fun _ _ => 0
  /-- How many editors were opened. -/
  opened : ℕ := 0

namespace Parts

variable (parts : Parts)

/-- A handler that an editor gave changes its view model, if that is still alive. -/
def updateEditor (editor : ℕ)
    (f : GaugeConfigViewControllerViewModel → GaugeConfigViewControllerViewModel) : Parts :=
  { parts with
    gaugeEditors := Function.update parts.gaugeEditors editor
      ((parts.gaugeEditors editor).map f) }

end Parts

/-- What the closures do when they are called with a characteristic's value. -/
def Closure.invoke : Closure → Option Data → Parts → Option Parts
  | .engineData, data, parts =>
    (parts.dashboard.received data).map fun dashboard => { parts with dashboard }
  | .initializeThresholds, none, parts => some parts
  | .initializeThresholds, some _, parts =>
    some { parts with
      thresholdManager := parts.thresholdManager.map (·.initializeWithData.1) }
  | .noOp, _, parts => some parts
  | .load _, none, parts => some parts
  | .load editor, some data, parts =>
    match parts.layout.parseResponse data with
    | .ok layout => some ({ parts with layout }.updateEditor editor
        (·.loadCompleted layout.gauges layout.monitors))
    | .error _ => none
  | .saved editor, _, parts => some (parts.updateEditor editor (·.saveCompleted true))

end Program

abbrev Program := System Program.Closure Program.Parts

namespace Program

/-- What the user does, the system tells, and the main queue runs. -/
inductive Input
  /-- An event of the pages that show the engine state. -/
  | display (event : Dashboard.Event)
  /-- `ThresholdConfigViewController`: a cell is handed out for a row, the list did appear, a row is
  selected. -/
  | thresholdCellForRowAt (cell row : ℕ)
  | thresholdListDidAppear
  | thresholdDidSelectRowAt (row : ℕ)
  | thresholdPageWillAppear (page : ℕ)
  | editThreshold (page : ℕ) (type : ThresholdType) (event : EditThresholdView.Event)
  | openGaugeEditor
  /-- The table of an editor is edited, or counts its rows again in a block of the main queue. -/
  | editGauges (editor : ℕ) (edit : GaugeConfigViewController.TableEdit)
  | reloadGaugeTable (editor : ℕ)
  /-- Save is pressed, or the editor begins to be left. -/
  | saveGauges (editor : ℕ)
  /-- The view model of an editor that was left is released. -/
  | releaseGaugeEditor (editor : ℕ)
  /-- The shutdown dialog is confirmed. -/
  | shutdown

inductive Event
  | bluetooth (event : Bluetooth.Event Closure)
  | input (input : Input)

/-- What the pages tell the dashboard: all but what the closure of a packet and the Bluetooth
manager do. -/
def ofPage : Dashboard.Event → Bool
  | .received _ | .stateSent _ => false
  | _ => true

namespace Parts

variable (uikit : UIKit) (parts : Parts)

/-- `ThresholdConfigManager.singleton`, which is made when it is used for the first time, with the
call that its `init` ends with. -/
def thresholdConfigManager : ThresholdConfigManager Empty × Option (Call Closure) :=
  match parts.thresholdManager with
  | some manager => (manager, none)
  | none => (.create, some (.read .thresholdConfig .initializeThresholds))

/-- `GaugeConfigViewControllerViewModel.save`, with `setGauges`. -/
def save (number : ℕ) (editor : GaugeConfigViewControllerViewModel) :
    Parts × Option (Call Closure) :=
  match editor.save with
  | (_, none) => (parts, none)
  | (saving, some (gauges, monitors)) =>
    let rawData := GaugeLayoutConfigManager.constructData gauges monitors
    ({ parts with
      gaugeEditors := Function.update parts.gaugeEditors number (some saving)
      layout := { gauges, monitors } },
      some (.write (some (.ofBytes rawData fun _ => 0)) .layoutConfig (.saved number)))

/-- What an input does, and the call of the Bluetooth manager that it ends with; a trap or an
exception leaves none. -/
def perform : Input → Option (Parts × Option (Call Closure))
  | .display event =>
    if ofPage event then
      (parts.dashboard.step event).map fun dashboard => ({ parts with dashboard }, none)
    else none
  | .thresholdCellForRowAt cell row =>
    match EngineDataItem.ofRawValue row with
    | none => some (parts, none)
    | some dataItem =>
      -- what the read at the end calls only marks the fetch
      let (manager, call) := parts.thresholdConfigManager
      some ({ parts with
        thresholdManager := some manager
        thresholdCells := Function.update parts.thresholdCells cell
          (some (.ofDataItem dataItem (manager.getThreshold dataItem))) }, call)
  | .thresholdListDidAppear => some (parts, some (.read .thresholdConfig .noOp))
  | .thresholdDidSelectRowAt row =>
    match EngineDataItem.ofRawValue row with
    | none => some (parts, none)
    | some dataItem =>
      let (manager, call) := parts.thresholdConfigManager
      let parts := { parts with thresholdManager := some manager }
      match manager.getThreshold dataItem with
      | none => some (parts, call)
      | some threshold =>
        let viewModel := {
          dataItem
          editParameters := dataItem.editThresholdParameters
          currentValue := threshold }
        some ({ parts with
          thresholdPages := parts.thresholdPages ++ [{ viewModel := some viewModel }] }, call)
  | .thresholdPageWillAppear page => do
    let controller ← parts.thresholdPages[page]?
    let controller ← controller.viewWillAppear uikit
    return ({ parts with thresholdPages := parts.thresholdPages.set page controller }, none)
  | .editThreshold page type event =>
    if event.isSetUp then none
    else do
      let controller ← parts.thresholdPages[page]?
      let controller ← controller.edit uikit type event
      return ({ parts with thresholdPages := parts.thresholdPages.set page controller }, none)
  | .openGaugeEditor =>
    some ({ parts with
      gaugeEditors := Function.update parts.gaugeEditors parts.opened (some {})
      gaugeTables := Function.update parts.gaugeTables parts.opened
        (GaugeConfigViewController.numberOfRowsInSection ⟨some {}⟩)
      opened := parts.opened + 1 }, some (.read .layoutConfig (.load parts.opened)))
  | .editGauges number edit => do
    let editor ← parts.gaugeEditors number
    let editor ← edit.perform (parts.gaugeTables number) editor
    return ({ parts with
      gaugeEditors := Function.update parts.gaugeEditors number (some editor)
      gaugeTables := Function.update parts.gaugeTables number
        (GaugeConfigViewController.numberOfRowsInSection ⟨some editor⟩) }, none)
  | .reloadGaugeTable number => do
    let editor ← parts.gaugeEditors number
    return ({ parts with
      gaugeTables := Function.update parts.gaugeTables number
        (GaugeConfigViewController.numberOfRowsInSection ⟨some editor⟩) }, none)
  | .saveGauges number => (parts.gaugeEditors number).map (parts.save number)
  | .releaseGaugeEditor number =>
    some ({ parts with gaugeEditors := Function.update parts.gaugeEditors number none }, none)
  | .shutdown => some (parts, some (.writeValue none .shutdown false))

end Parts

/-- `application(_:didFinishLaunchingWithOptions:)`: the Bluetooth manager, and the engine state
manager, which subscribes to the engine data. -/
def launch : Program := System.subscribe { app := {} } .engineData .engineData

/-- The `state` that a delegate method of the Bluetooth manager sends, if any. -/
def sentState : Bluetooth.Event Closure → Option BluetoothState
  | .didDiscover _ => some .connecting
  | .didDiscoverCharacteristicsFor _ (some _) => some .connected
  | _ => none

/-- What is observed of the `state` that an event sends. -/
def observeState (s : Program) (event : Bluetooth.Event Closure) : Program :=
  match sentState event with
  | none => s
  | some state => { s with app := { s.app with dashboard := s.app.dashboard.stateSent state } }

def isCall : Bluetooth.Event Closure → Bool
  | .call _ => true
  | _ => false

/-- One event. The closures call the Bluetooth manager no more, and return. -/
def step (uikit : UIKit) (describe : CBUUID → String) (s : Program) : Event → Option Program
  | .bluetooth event =>
    if isCall event then none
    else (System.step describe Closure.invoke s event).map (observeState · event)
  | .input input =>
    if s.Idle then do
      let (parts, call) ← s.app.perform uikit input
      match call with
      | none => return { s with app := parts }
      | some call => System.call Closure.invoke { s with app := parts } call
    else none

end Program

end Rx7
