import Rx7.Engine.Item
import Rx7.Swift.Array

/-!
# The view model of the gauge editor

`GaugeConfigViewControllerViewModel` holds the two lists the user edits, with the flags that the
editor shows: whether the layout has been loaded, whether a save is going on and whether there are
edits to save. Its methods are pure functions of it here. `save` also returns the lists it hands to
the layout manager, and `loadCompleted` and `saveCompleted` are the completion handlers that `init`
and `save` give to the manager.
-/

namespace Rx7

/-- An index path of the table, whose sections are the gauges (0) and the monitors (1). -/
structure IndexPath where
  row : ℕ
  sect : ℕ
  deriving DecidableEq, Repr

structure GaugeConfigViewControllerViewModel where
  hasLoaded : Bool := false
  isSaving : Bool := false
  saveError : Option String := none
  gauges : List EngineDataItem := []
  monitors : List EngineDataItem := []
  configHasChanged : Bool := false
  deriving DecidableEq

namespace GaugeConfigViewControllerViewModel

variable (self : GaugeConfigViewControllerViewModel)

/-- The completion handler of the load that `init` begins. -/
def loadCompleted (gauges monitors : List EngineDataItem) : GaugeConfigViewControllerViewModel :=
  { self with gauges, monitors, hasLoaded := true }

def getItem (indexPath : IndexPath) : Option EngineDataItem :=
  if indexPath.sect = 0 ∧ indexPath.row < self.gauges.length then self.gauges[indexPath.row]?
  else if indexPath.sect = 1 ∧ indexPath.row < self.monitors.length then
    self.monitors[indexPath.row]?
  else none

def isAddButton (indexPath : IndexPath) : Bool :=
  (indexPath.sect = 0 ∧ indexPath.row = self.gauges.length) ∨
    (indexPath.sect = 1 ∧ indexPath.row = self.monitors.length)

/-! ## Edits -/

def gaugeConfigChanged : GaugeConfigViewControllerViewModel :=
  { self with configHasChanged := true }

/-- `addItem(_:toSection:)`. -/
def addItem (item : EngineDataItem) (toSection : ℕ) : GaugeConfigViewControllerViewModel :=
  let self :=
    if toSection = 0 then { self with gauges := self.gauges ++ [item] }
    else if toSection = 1 then { self with monitors := self.monitors ++ [item] }
    else self
  self.gaugeConfigChanged

/-- `deleteItem(withIndexPath:)`. The second branch asks for the section of the first again, so
that a path of section 1 takes neither. -/
def deleteItem (indexPath : IndexPath) : Except Trap GaugeConfigViewControllerViewModel := do
  if indexPath.sect = 0 then
    if ¬ indexPath.row < self.gauges.length then
      return self
    let (_, updatedGauges) ← Swift.removeAt self.gauges indexPath.row
    return { self with gauges := updatedGauges }.gaugeConfigChanged
  else if indexPath.sect = 0 then
    if ¬ indexPath.row < self.monitors.length then
      return self
    let (_, updatedMonitors) ← Swift.removeAt self.monitors indexPath.row
    return { self with monitors := updatedMonitors }.gaugeConfigChanged
  return self.gaugeConfigChanged

/-- `moveItem(fromIndexPath:toIndexPath:)`. -/
def moveItem (fromIndexPath toIndexPath : IndexPath) :
    Except Trap GaugeConfigViewControllerViewModel := do
  if fromIndexPath.sect = 0 ∧ toIndexPath.sect = 0 then
    let (movedItem, updatedGauges) ← Swift.removeAt self.gauges fromIndexPath.row
    let updatedGauges ← Swift.insertAt updatedGauges movedItem toIndexPath.row
    return { self with gauges := updatedGauges }.gaugeConfigChanged
  else if fromIndexPath.sect = 1 ∧ toIndexPath.sect = 1 then
    let (movedItem, updatedMonitors) ← Swift.removeAt self.monitors fromIndexPath.row
    let updatedMonitors ← Swift.insertAt updatedMonitors movedItem toIndexPath.row
    return { self with monitors := updatedMonitors }.gaugeConfigChanged
  else
    let fromArray := if fromIndexPath.sect = 0 then self.gauges else self.monitors
    let toArray := if toIndexPath.sect = 0 then self.gauges else self.monitors
    let (movedItem, fromArray) ← Swift.removeAt fromArray fromIndexPath.row
    let toArray ← Swift.insertAt toArray movedItem toIndexPath.row
    if toIndexPath.sect = 0 then
      return { self with gauges := toArray, monitors := fromArray }.gaugeConfigChanged
    else if toIndexPath.sect = 1 then
      return { self with monitors := toArray, gauges := fromArray }.gaugeConfigChanged
    return self.gaugeConfigChanged

/-! ## Saves -/

/-- `save()`: the editor behind it, and the lists handed to `setGauges`, if any. -/
def save : GaugeConfigViewControllerViewModel ×
    Option (List EngineDataItem × List EngineDataItem) :=
  if ¬ self.configHasChanged then (self, none)
  else ({ self with isSaving := true }, some (self.gauges, self.monitors))

/-- The completion handler that `save` gives to `setGauges`. -/
def saveCompleted (wasSuccessful : Bool) : GaugeConfigViewControllerViewModel :=
  let self :=
    if !wasSuccessful then { self with saveError := some "Error saving gauge config." }
    else if self.saveError ≠ none then { self with saveError := none }
    else self
  { self with configHasChanged := false, isSaving := false }

section

variable (wasSuccessful : Bool)

/-- A completed save touches nothing but the flags. -/
theorem saveCompleted_eq : ∃ saveError, self.saveCompleted wasSuccessful =
    { self with saveError, configHasChanged := false, isSaving := false } := by
  unfold saveCompleted
  split_ifs <;> exact ⟨_, rfl⟩

@[simp] theorem hasLoaded_saveCompleted :
    (self.saveCompleted wasSuccessful).hasLoaded = self.hasLoaded := by
  obtain ⟨saveError, h⟩ := self.saveCompleted_eq wasSuccessful
  rw [h]

@[simp] theorem gauges_saveCompleted :
    (self.saveCompleted wasSuccessful).gauges = self.gauges := by
  obtain ⟨saveError, h⟩ := self.saveCompleted_eq wasSuccessful
  rw [h]

@[simp] theorem monitors_saveCompleted :
    (self.saveCompleted wasSuccessful).monitors = self.monitors := by
  obtain ⟨saveError, h⟩ := self.saveCompleted_eq wasSuccessful
  rw [h]

@[simp] theorem configHasChanged_saveCompleted :
    (self.saveCompleted wasSuccessful).configHasChanged = false := rfl

@[simp] theorem isSaving_saveCompleted : (self.saveCompleted wasSuccessful).isSaving = false := rfl

end

theorem save_of_not_changed {self : GaugeConfigViewControllerViewModel}
    (h : self.configHasChanged = false) : self.save = (self, none) := by
  simp [save, h]

theorem save_of_changed {self : GaugeConfigViewControllerViewModel}
    (h : self.configHasChanged = true) :
    self.save = ({ self with isSaving := true }, some (self.gauges, self.monitors)) := by
  simp [save, h]

end GaugeConfigViewControllerViewModel

end Rx7
