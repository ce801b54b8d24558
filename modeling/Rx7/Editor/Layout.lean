import Rx7.Editor.ViewModel
import Rx7.Foundations.Sections
import Mathlib.Data.Fintype.Defs

/-!
# The layout that the editor shows

What the user sees is a table in two sections, the gauges and the monitors (`Layout`), and what the
user does to it are edits of such tables (`LayoutEdit.asked`). The view model carries out an edit
by a method of its own on the two lists (`LayoutEdit.perform`). Where a row is added or moved, the
method does what was asked (`perform_refines`).
-/

namespace Rx7

inductive LayoutSection
  | gauges
  | monitors
  deriving DecidableEq, Repr

namespace LayoutSection

instance : Fintype LayoutSection := ⟨{.gauges, .monitors}, fun s => by cases s <;> simp⟩

/-- The section of an index path. -/
def ofIndex : ℕ → Option LayoutSection
  | 0 => some gauges
  | 1 => some monitors
  | _ => none

theorem ofIndex_eq_gauges {i : ℕ} : ofIndex i = some gauges ↔ i = 0 := by
  match i with
  | 0 | 1 | _ + 2 => simp [ofIndex]

theorem ofIndex_eq_monitors {i : ℕ} : ofIndex i = some monitors ↔ i = 1 := by
  match i with
  | 0 | 1 | _ + 2 => simp [ofIndex]

theorem ofIndex_inj {i j : ℕ} {s s' : LayoutSection} (hs : ofIndex i = some s)
    (hs' : ofIndex j = some s') : s = s' ↔ i = j := by
  cases s <;> cases s' <;> simp only [ofIndex_eq_gauges, ofIndex_eq_monitors] at hs hs' <;>
    simp [hs, hs']

end LayoutSection

/-- The rows of the table. -/
abbrev Layout := LayoutSection → List EngineDataItem

def Layout.of (gauges monitors : List EngineDataItem) : Layout
  | .gauges => gauges
  | .monitors => monitors

namespace Layout

open Function

variable (g m g' m' l : List EngineDataItem)

@[simp] theorem of_gauges : Layout.of g m .gauges = g := rfl

@[simp] theorem of_monitors : Layout.of g m .monitors = m := rfl

@[simp] theorem of_inj : Layout.of g m = Layout.of g' m' ↔ g = g' ∧ m = m' :=
  ⟨fun h => ⟨congrFun h .gauges, congrFun h .monitors⟩, fun ⟨hg, hm⟩ => by rw [hg, hm]⟩

@[simp] theorem update_of_gauges : update (Layout.of g m) .gauges l = Layout.of l m := by
  funext s
  cases s <;> simp

@[simp] theorem update_of_monitors : update (Layout.of g m) .monitors l = Layout.of g l := by
  funext s
  cases s <;> simp

theorem of_nil : Layout.of [] [] = fun _ => [] := by
  funext s
  cases s <;> rfl

/-- The table without the row at a path. -/
def without (l : Layout) (path : IndexPath) : Layout := fun s =>
  if LayoutSection.ofIndex path.sect = some s then (l s).eraseIdx path.row else l s

theorem without_eq {l : Layout} {path : IndexPath} {s : LayoutSection}
    (hs : LayoutSection.ofIndex path.sect = some s) :
    l.without path = Function.update l s ((l s).eraseIdx path.row) := by
  funext s'
  simp only [without, hs, Option.some.injEq]
  split_ifs with h
  · rw [h, Function.update_self]
  · rw [Function.update_of_ne (Ne.symm h)]

/-- What is left when the row at a path is taken out. -/
theorem take_eq_without {l : Layout} {path : IndexPath} {s : LayoutSection} {x : EngineDataItem}
    (hs : LayoutSection.ofIndex path.sect = some s) (hx : (l s)[path.row]? = some x) :
    Sections.take l (s, path.row) = some (x, l.without path) :=
  Sections.take_eq_some_iff.2 ⟨hx, without_eq hs⟩

end Layout

/-- The edits of the view model, by the index paths of the table. -/
inductive LayoutEdit
  | addItem (item : EngineDataItem) (toSection : ℕ)
  | deleteItem (indexPath : IndexPath)
  | moveItem (fromIndexPath toIndexPath : IndexPath)

namespace GaugeConfigViewControllerViewModel

def layout (self : GaugeConfigViewControllerViewModel) : Layout :=
  .of self.gauges self.monitors

/-- Carry out an edit. -/
def perform (self : GaugeConfigViewControllerViewModel) :
    LayoutEdit → Except Trap GaugeConfigViewControllerViewModel
  | .addItem item toSection => .ok (self.addItem item toSection)
  | .deleteItem indexPath => self.deleteItem indexPath
  | .moveItem fromIndexPath toIndexPath => self.moveItem fromIndexPath toIndexPath

end GaugeConfigViewControllerViewModel

namespace LayoutEdit

open Sections (Edit)

/-- The edit of the table that is asked for; a section that does not exist asks for none. -/
def asked : LayoutEdit → Option (Edit LayoutSection EngineDataItem)
  | .addItem item toSection => (LayoutSection.ofIndex toSection).map fun s => .add s item
  | .deleteItem path => (LayoutSection.ofIndex path.sect).map fun s => .remove (s, path.row)
  | .moveItem source destination => do
    let s ← LayoutSection.ofIndex source.sect
    let s' ← LayoutSection.ofIndex destination.sect
    return .move (s, source.row) (s', destination.row)

end LayoutEdit

namespace GaugeConfigViewControllerViewModel

open Sections (Edit)

variable {vm vm' : GaugeConfigViewControllerViewModel} {path : IndexPath}

/-- The view model with the rows of a table for its lists. -/
def edited (self : GaugeConfigViewControllerViewModel) (l : Layout) :
    GaugeConfigViewControllerViewModel :=
  { self with gauges := l .gauges, monitors := l .monitors, configHasChanged := true }

@[simp] theorem configHasChanged_edited (l : Layout) : (vm.edited l).configHasChanged = true := rfl

@[simp] theorem layout_gaugeConfigChanged : vm.gaugeConfigChanged.layout = vm.layout := rfl

@[simp] theorem configHasChanged_gaugeConfigChanged :
    vm.gaugeConfigChanged.configHasChanged = true := rfl

@[simp] theorem layout_edited (l : Layout) : (vm.edited l).layout = l := by
  funext s
  cases s <;> rfl

theorem addItem_refines {item : EngineDataItem} {toSection : ℕ} {s : LayoutSection}
    (hs : LayoutSection.ofIndex toSection = some s) :
    (Edit.add s item).apply vm.layout = some (vm.addItem item toSection).layout := by
  cases s with
  | gauges =>
    rw [LayoutSection.ofIndex_eq_gauges] at hs
    simp [Edit.apply, layout, addItem, hs, gaugeConfigChanged]
  | monitors =>
    rw [LayoutSection.ofIndex_eq_monitors] at hs
    simp [Edit.apply, layout, addItem, hs, gaugeConfigChanged]

theorem getItem_eq_some_iff {x : EngineDataItem} :
    vm.getItem path = some x ↔
      ∃ s, LayoutSection.ofIndex path.sect = some s ∧ (vm.layout s)[path.row]? = some x := by
  unfold getItem
  split_ifs with h0 h1
  · simp [h0.1, LayoutSection.ofIndex, layout]
  · simp [h1.1, LayoutSection.ofIndex, layout]
  · refine iff_of_false (by simp) ?_
    rintro ⟨s, hs, hx⟩
    have hlt := (List.getElem?_eq_some_iff.1 hx).1
    cases s with
    | gauges => exact h0 ⟨LayoutSection.ofIndex_eq_gauges.1 hs, hlt⟩
    | monitors => exact h1 ⟨LayoutSection.ofIndex_eq_monitors.1 hs, hlt⟩

theorem deleteItem_of_lt (hs : path.sect = 0) (h : path.row < vm.gauges.length) :
    vm.deleteItem path = .ok (vm.edited (vm.layout.without path)) := by
  rw [Layout.without_eq (LayoutSection.ofIndex_eq_gauges.2 hs)]
  simp [deleteItem, hs, h, Swift.removeAt, bind, Except.bind, pure, Except.pure, edited, layout,
    gaugeConfigChanged]

theorem deleteItem_of_le (hs : path.sect = 0) (h : vm.gauges.length ≤ path.row) :
    vm.deleteItem path = .ok vm := by
  simp [deleteItem, hs, not_lt.2 h, pure, Except.pure]

/-- A path of another section than 0 deletes nothing, be it one of a monitor. -/
theorem deleteItem_of_ne_zero (hs : path.sect ≠ 0) :
    vm.deleteItem path = .ok vm.gaugeConfigChanged := by
  simp [deleteItem, hs, pure, Except.pure]

theorem moveItem_eq_ok_iff {source destination : IndexPath} {s s' : LayoutSection}
    (hs : LayoutSection.ofIndex source.sect = some s)
    (hs' : LayoutSection.ofIndex destination.sect = some s') :
    vm.moveItem source destination = .ok vm' ↔
      ∃ l, (Edit.move (s, source.row) (s', destination.row)).apply vm.layout = some l ∧
        vm.edited l = vm' := by
  simp only [Sections.apply_move_eq_some_iff, Sections.take_eq_some_iff, Sections.put_eq_some_iff]
  -- The source has one branch for each of the two sections, and one for the moves between them.
  cases s <;> cases s' <;>
    simp only [LayoutSection.ofIndex_eq_gauges, LayoutSection.ofIndex_eq_monitors] at hs hs'
  all_goals
    simp [moveItem, hs, hs', Swift.bind_removeAt_eq_ok_iff, Swift.bind_insertAt_eq_ok_iff, layout,
      edited, gaugeConfigChanged, pure, Except.pure, and_assoc]

theorem moveItem_refines {source destination : IndexPath} {s s' : LayoutSection}
    (hs : LayoutSection.ofIndex source.sect = some s)
    (hs' : LayoutSection.ofIndex destination.sect = some s')
    (h : vm.moveItem source destination = .ok vm') :
    (Edit.move (s, source.row) (s', destination.row)).apply vm.layout = some vm'.layout := by
  obtain ⟨l, hl, rfl⟩ := (moveItem_eq_ok_iff hs hs').1 h
  rwa [layout_edited]

/-- **What an edit can do**: nothing, or change the lists and mark the layout as changed. -/
theorem perform_cases {edit : LayoutEdit} (h : vm.perform edit = .ok vm') :
    vm' = vm ∨ ∃ gauges monitors, vm' = { vm with gauges, monitors, configHasChanged := true } := by
  have hchanged : ∀ g m, { vm with gauges := g, monitors := m }.gaugeConfigChanged = vm' →
      ∃ gauges monitors, vm' = { vm with gauges, monitors, configHasChanged := true } :=
    fun g m h => ⟨g, m, h.symm⟩
  cases edit with
  | addItem item toSection =>
    refine .inr ?_
    have h := Except.ok.inj h
    unfold addItem at h
    split_ifs at h
    · exact hchanged _ _ h
    · exact hchanged _ _ h
    · exact hchanged _ _ h
  | deleteItem path =>
    by_cases hs : path.sect = 0
    · rcases lt_or_ge path.row vm.gauges.length with hrow | hrow
      · exact .inr ⟨_, _, (Except.ok.inj ((deleteItem_of_lt hs hrow).symm.trans h)).symm⟩
      · exact .inl (Except.ok.inj ((deleteItem_of_le hs hrow).symm.trans h)).symm
    · exact .inr (hchanged _ _ (Except.ok.inj ((deleteItem_of_ne_zero hs).symm.trans h)))
  | moveItem source destination =>
    refine .inr ?_
    simp only [perform, moveItem] at h
    split_ifs at h
    all_goals
      obtain ⟨x, -, h⟩ := Swift.bind_removeAt_eq_ok_iff.1 h
      obtain ⟨-, h⟩ := Swift.bind_insertAt_eq_ok_iff.1 h
      exact hchanged _ _ (Except.ok.inj h)

/-- **Rows are added and moved as the user asks.** -/
theorem perform_refines {edit : LayoutEdit} {asked : Edit LayoutSection EngineDataItem}
    (hasked : edit.asked = some asked) (hremove : asked.isRemove = false)
    (h : vm.perform edit = .ok vm') : asked.apply vm.layout = some vm'.layout := by
  cases edit with
  | addItem item toSection =>
    obtain ⟨s, hs, rfl⟩ := Option.map_eq_some_iff.1 hasked
    cases h
    exact addItem_refines hs
  | deleteItem path =>
    obtain ⟨s, hs, rfl⟩ := Option.map_eq_some_iff.1 hasked
    cases hremove
  | moveItem source destination =>
    obtain ⟨s, hs, hasked⟩ := Option.bind_eq_some_iff.1 hasked
    obtain ⟨s', hs', hasked⟩ := Option.bind_eq_some_iff.1 hasked
    cases hasked
    exact moveItem_refines hs hs' h

end GaugeConfigViewControllerViewModel

end Rx7
