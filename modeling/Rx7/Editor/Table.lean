import Rx7.Editor.Layout

/-!
# The gauge table

`GaugeConfigViewController` shows each list of the view model as a section of a table, one row per
item and an add row behind them. Every row can be deleted and dragged (`Gesture`), the add row too.
UIKit counts the rows behind a gesture, and raises an exception where they are not those before
with the row taken out or moved over (`Handled`).

`gesture_handled_iff` says which of the gestures that the table offers are handled: the deletion of
a gauge, and the move of an item to a place that is not behind the add row. `isSome_perform_iff` has
the rows that the table counted last, which a load leaves behind, and the items that are picked for
an add row (`TableEdit`).
-/

namespace Rx7

structure GaugeConfigViewController where
  viewModel : Option GaugeConfigViewControllerViewModel := none

namespace GaugeConfigViewController

/-- `UITableViewCell.EditingStyle`. -/
inductive EditingStyle
  | none | delete | insert
  deriving DecidableEq

variable (self : GaugeConfigViewController)

def numberOfSections : ℕ := 2

def numberOfRowsInSection (sect : ℕ) : ℕ :=
  match self.viewModel with
  | none => 0
  | some viewModel =>
    if sect = 0 then viewModel.gauges.length + 1 else viewModel.monitors.length + 1

/-- `tableView(_:commit:forRowAt:)`: the controller behind it, and the rows that the table is told
to delete. -/
def commit (editingStyle : EditingStyle) (indexPath : IndexPath) :
    Except Trap (GaugeConfigViewController × List IndexPath) :=
  match editingStyle with
  | .delete =>
    match self.viewModel with
    | none => .ok (self, [indexPath])
    | some viewModel => do
      let viewModel ← viewModel.deleteItem indexPath
      return (⟨some viewModel⟩, [indexPath])
  | _ => .ok (self, [])

/-- `tableView(_:moveRowAt:to:)`. -/
def moveRowAt (fromIndexPath toIndexPath : IndexPath) : Except Trap GaugeConfigViewController :=
  match self.viewModel with
  | none => .ok self
  | some viewModel => do
    let viewModel ← viewModel.moveItem fromIndexPath toIndexPath
    return ⟨some viewModel⟩

def canMoveRowAt (_ : IndexPath) : Bool := true

/-! ## Gestures -/

/-- What the user does to a row of the table in its editing mode. -/
inductive Gesture
  | delete (indexPath : IndexPath)
  | move (fromIndexPath toIndexPath : IndexPath)

/-- The rows that a gesture takes out of a section. -/
def Gesture.taken (sect : ℕ) : Gesture → ℕ
  | .delete indexPath => if indexPath.sect = sect then 1 else 0
  | .move fromIndexPath _ => if fromIndexPath.sect = sect then 1 else 0

/-- The rows that a gesture puts into a section. -/
def Gesture.put (sect : ℕ) : Gesture → ℕ
  | .delete _ => 0
  | .move _ toIndexPath => if toIndexPath.sect = sect then 1 else 0

/-- The table shows the row. -/
def Shows (indexPath : IndexPath) : Prop :=
  indexPath.sect < numberOfSections ∧ indexPath.row < self.numberOfRowsInSection indexPath.sect

instance (indexPath : IndexPath) : Decidable (self.Shows indexPath) :=
  inferInstanceAs (Decidable (indexPath.sect < numberOfSections ∧
    indexPath.row < self.numberOfRowsInSection indexPath.sect))

/-- The row shows an item: it is not the add row. -/
def ShowsItem (indexPath : IndexPath) : Prop :=
  indexPath.row + 1 < self.numberOfRowsInSection indexPath.sect

/-- The gestures that the table offers. A row can be dragged to any place in the rows that are left
when it is taken out, the place behind the last one included. -/
def Offered : Gesture → Prop
  | .delete indexPath => self.Shows indexPath
  | .move source destination =>
    self.Shows source ∧ canMoveRowAt source = true ∧ destination.sect < numberOfSections ∧
      destination.row + (Gesture.move source destination).taken destination.sect ≤
        self.numberOfRowsInSection destination.sect

instance : (gesture : Gesture) → Decidable (self.Offered gesture)
  | .delete indexPath => inferInstanceAs (Decidable (self.Shows indexPath))
  | .move source destination =>
    inferInstanceAs (Decidable (self.Shows source ∧ canMoveRowAt source = true ∧
      destination.sect < numberOfSections ∧
        destination.row + (Gesture.move source destination).taken destination.sect ≤
          self.numberOfRowsInSection destination.sect))

def perform : Gesture → Except Trap GaugeConfigViewController
  | .delete indexPath => Prod.fst <$> self.commit .delete indexPath
  | .move fromIndexPath toIndexPath => self.moveRowAt fromIndexPath toIndexPath

/-- The rows are those of the last count with some taken out and some put in, as UIKit checks. -/
def Counts (rows taken put : ℕ → ℕ) : Prop :=
  ∀ sect < numberOfSections, self.numberOfRowsInSection sect + taken sect = rows sect + put sect

instance (rows taken put : ℕ → ℕ) : Decidable (self.Counts rows taken put) :=
  inferInstanceAs (Decidable (∀ sect < numberOfSections, _))

/-- The last count is that of the lists. -/
def Fresh (rows : ℕ → ℕ) : Prop :=
  ∀ sect < numberOfSections, rows sect = self.numberOfRowsInSection sect

/-- The gesture does not trap, and the rows are those before with its row taken out and put in. -/
def Handled (gesture : Gesture) : Prop :=
  ∃ self', self.perform gesture = .ok self' ∧ ∀ sect < numberOfSections,
    self'.numberOfRowsInSection sect + gesture.taken sect =
      self.numberOfRowsInSection sect + gesture.put sect

/-- What the code provides for: a gauge is deleted, or an item is moved to a place that is not
behind the add row. -/
def Foreseen : Gesture → Prop
  | .delete indexPath => indexPath.sect = 0 ∧ self.ShowsItem indexPath
  | .move source destination =>
    self.ShowsItem source ∧
      destination.row + (Gesture.move source destination).taken destination.sect <
        self.numberOfRowsInSection destination.sect

instance : (gesture : Gesture) → Decidable (self.Foreseen gesture)
  | .delete indexPath => inferInstanceAs (Decidable (indexPath.sect = 0 ∧
    indexPath.row + 1 < self.numberOfRowsInSection indexPath.sect))
  | .move source destination => inferInstanceAs (Decidable
    (source.row + 1 < self.numberOfRowsInSection source.sect ∧
      destination.row + (Gesture.move source destination).taken destination.sect <
        self.numberOfRowsInSection destination.sect))

open GaugeConfigViewControllerViewModel
open Sections (Edit)

variable {self} {vm vm' : GaugeConfigViewControllerViewModel}

/-- The sections of the table are those of the layout. -/
theorem lt_numberOfSections_iff {sect : ℕ} :
    sect < numberOfSections ↔ ∃ s, LayoutSection.ofIndex sect = some s := by
  match sect with
  | 0 => exact iff_of_true (by decide) ⟨.gauges, rfl⟩
  | 1 => exact iff_of_true (by decide) ⟨.monitors, rfl⟩
  | sect + 2 => simp [numberOfSections, LayoutSection.ofIndex]

theorem numberOfRowsInSection_eq {sect : ℕ} {s : LayoutSection}
    (hs : LayoutSection.ofIndex sect = some s) :
    numberOfRowsInSection ⟨some vm⟩ sect = (vm.layout s).length + 1 := by
  cases s with
  | gauges =>
    rw [LayoutSection.ofIndex_eq_gauges.1 hs]
    rfl
  | monitors =>
    rw [LayoutSection.ofIndex_eq_monitors.1 hs]
    rfl

/-- The edit of the view model that a gesture asks for. -/
def Gesture.layoutEdit : Gesture → LayoutEdit
  | .delete indexPath => .deleteItem indexPath
  | .move fromIndexPath toIndexPath => .moveItem fromIndexPath toIndexPath

theorem perform_eq (vm : GaugeConfigViewControllerViewModel) (gesture : Gesture) :
    perform ⟨some vm⟩ gesture = (vm.perform gesture.layoutEdit).map fun vm' => ⟨some vm'⟩ := by
  cases gesture with
  | delete indexPath =>
    change Prod.fst <$> (vm.deleteItem indexPath >>= _) = (vm.deleteItem indexPath).map _
    cases vm.deleteItem indexPath <;> rfl
  | move source destination =>
    change (vm.moveItem source destination >>= _) = (vm.moveItem source destination).map _
    cases vm.moveItem source destination <;> rfl

/-- A gesture in terms of the view model: the edit goes through, and the lists have the lengths
that the table counts on. -/
theorem handled_iff {gesture : Gesture} :
    Handled ⟨some vm⟩ gesture ↔ ∃ vm', vm.perform gesture.layoutEdit = .ok vm' ∧
      ∀ sect s, LayoutSection.ofIndex sect = some s →
        (vm'.layout s).length + gesture.taken sect = (vm.layout s).length + gesture.put sect := by
  have hrows : ∀ {n m i j : ℕ}, n + 1 + i = m + 1 + j ↔ n + i = m + j := by
    intro n m i j
    omega
  rw [Handled, perform_eq]
  cases vm.perform gesture.layoutEdit with
  | error trap =>
    exact ⟨fun ⟨_, h, _⟩ => (by cases h), fun ⟨_, h, _⟩ => (by cases h)⟩
  | ok vm' =>
    refine ⟨fun ⟨self', h, hall⟩ => ⟨vm', rfl, fun sect s hs => ?_⟩,
      fun ⟨_, h, hall⟩ => ⟨_, rfl, fun sect hsect => ?_⟩⟩
    · obtain rfl := Except.ok.inj h
      have hsect := hall sect (lt_numberOfSections_iff.2 ⟨s, hs⟩)
      rwa [numberOfRowsInSection_eq hs, numberOfRowsInSection_eq hs, hrows] at hsect
    · obtain rfl := Except.ok.inj h
      obtain ⟨s, hs⟩ := lt_numberOfSections_iff.1 hsect
      rw [numberOfRowsInSection_eq hs, numberOfRowsInSection_eq hs, hrows]
      exact hall sect s hs

/-- A deletion that leaves the lists as they are leaves the table with a row too many. -/
theorem not_handled_delete {indexPath : IndexPath} (h : indexPath.sect < numberOfSections)
    (hdelete : vm.deleteItem indexPath = .ok vm') (hlayout : vm'.layout = vm.layout) :
    ¬ Handled ⟨some vm⟩ (.delete indexPath) := by
  obtain ⟨s, hs⟩ := lt_numberOfSections_iff.1 h
  rw [handled_iff]
  rintro ⟨vm'', hperform, hall⟩
  obtain rfl := Except.ok.inj (hdelete.symm.trans hperform)
  have hlength := hall _ s hs
  simp [hlayout, Gesture.taken, Gesture.put] at hlength

/-- A row of the gauges is deleted unless it is the add row; a row of the monitors never is. -/
theorem delete_handled_iff {indexPath : IndexPath} (h : indexPath.sect < numberOfSections) :
    Handled ⟨some vm⟩ (.delete indexPath) ↔ Foreseen ⟨some vm⟩ (.delete indexPath) := by
  by_cases h0 : indexPath.sect = 0
  · have hs := LayoutSection.ofIndex_eq_gauges.2 h0
    rw [Foreseen, ShowsItem, numberOfRowsInSection_eq hs, Nat.add_lt_add_iff_right]
    by_cases hrow : indexPath.row < vm.gauges.length
    · refine iff_of_true (handled_iff.2 ⟨_, deleteItem_of_lt h0 hrow, fun sect s hs' => ?_⟩)
        ⟨h0, hrow⟩
      have hlength := Sections.length_take
        (Layout.take_eq_without (l := vm.layout) hs (List.getElem?_eq_getElem hrow)) s
      rw [layout_edited, hlength, Gesture.taken, Gesture.put,
        if_congr (LayoutSection.ofIndex_inj hs hs') rfl rfl, Nat.add_zero]
    · exact iff_of_false (not_handled_delete h (deleteItem_of_le h0 (not_lt.1 hrow)) rfl)
        fun h => hrow h.2
  · exact iff_of_false (not_handled_delete h (deleteItem_of_ne_zero h0) rfl) fun h => h0 h.1

theorem foreseen_move_iff {source destination : IndexPath} {s s' : LayoutSection}
    (hs : LayoutSection.ofIndex source.sect = some s)
    (hs' : LayoutSection.ofIndex destination.sect = some s') :
    Foreseen ⟨some vm⟩ (.move source destination) ↔
      ∃ l, (Edit.move (s, source.row) (s', destination.row)).apply vm.layout = some l := by
  rw [Sections.exists_apply_move_iff, Foreseen, ShowsItem, numberOfRowsInSection_eq hs,
    numberOfRowsInSection_eq hs', Nat.add_lt_add_iff_right, Nat.lt_succ_iff, Gesture.taken,
    if_congr (LayoutSection.ofIndex_inj hs hs') rfl rfl]

/-- An item is moved unless its row is the add row, or its place behind that. -/
theorem move_handled_iff {source destination : IndexPath} (hs : source.sect < numberOfSections)
    (hd : destination.sect < numberOfSections) :
    Handled ⟨some vm⟩ (.move source destination) ↔
      Foreseen ⟨some vm⟩ (.move source destination) := by
  obtain ⟨s, hs⟩ := lt_numberOfSections_iff.1 hs
  obtain ⟨s', hs'⟩ := lt_numberOfSections_iff.1 hd
  rw [handled_iff, foreseen_move_iff hs hs']
  constructor
  · rintro ⟨vm', h, -⟩
    exact ⟨_, moveItem_refines hs hs' h⟩
  · rintro ⟨l, hl⟩
    refine ⟨_, (moveItem_eq_ok_iff hs hs').2 ⟨l, hl, rfl⟩, fun sect t ht => ?_⟩
    have hlength := Sections.length_apply_move hl t
    rw [layout_edited]
    rwa [if_congr (LayoutSection.ofIndex_inj hs ht) rfl rfl,
      if_congr (LayoutSection.ofIndex_inj hs' ht) rfl rfl] at hlength

/-- **Which gestures are handled.** For every pair of lists, of the gestures that the table offers,
those and only those that the code provides for go through without a trap and leave the rows that
the table counts on. -/
theorem gesture_handled_iff {gesture : Gesture} (h : self.Offered gesture) :
    self.Handled gesture ↔ self.Foreseen gesture := by
  obtain ⟨_ | vm⟩ := self
  · -- Without a view model there are no rows.
    cases gesture with
    | delete indexPath => exact absurd h.2 (Nat.not_lt_zero _)
    | move source destination => exact absurd h.1.2 (Nat.not_lt_zero _)
  · cases gesture with
    | delete indexPath => exact delete_handled_iff h.1
    | move source destination => exact move_handled_iff h.1.1 h.2.2.1

/-- Three gestures that the table offers and the code does not provide for: a monitor is deleted,
an add row is deleted, a gauge is dragged behind its add row. -/
theorem gestures_not_handled :
    let self : GaugeConfigViewController := ⟨some { gauges := [.rpm], monitors := [.speed] }⟩
    (self.Offered (.delete ⟨0, 1⟩) ∧ ¬ self.Handled (.delete ⟨0, 1⟩)) ∧
    (self.Offered (.delete ⟨1, 0⟩) ∧ ¬ self.Handled (.delete ⟨1, 0⟩)) ∧
    self.Offered (.move ⟨0, 0⟩ ⟨1, 0⟩) ∧ ¬ self.Handled (.move ⟨0, 0⟩ ⟨1, 0⟩) := by
  refine ⟨⟨by decide, ?_⟩, ⟨by decide, ?_⟩, by decide, ?_⟩
  · rintro ⟨self', h, hrows⟩
    obtain rfl := Except.ok.inj h
    exact absurd (hrows 1 (by decide)) (by decide)
  · rintro ⟨self', h, hrows⟩
    obtain rfl := Except.ok.inj h
    exact absurd (hrows 0 (by decide)) (by decide)
  · rintro ⟨self', h, -⟩
    cases h

theorem gesture_handled_iff_deleteMonitor :
    let self : GaugeConfigViewController := ⟨some { gauges := [.rpm], monitors := [.speed] }⟩
    self.Offered (.delete ⟨0, 1⟩) ∧
      (self.Handled (.delete ⟨0, 1⟩) ↔ self.Foreseen (.delete ⟨0, 1⟩)) := by
  intro self
  have h : self.Offered (.delete ⟨0, 1⟩) := by decide
  exact ⟨h, gesture_handled_iff h⟩

/-! ## Edits of a table that has counted its rows -/

/-- What changes the rows of the table: a gesture, or an item that was picked for the add row that
was at a place. -/
inductive TableEdit
  | gesture (gesture : Gesture)
  | addItem (item : EngineDataItem) (indexPath : IndexPath)

namespace TableEdit

def layoutEdit : TableEdit → LayoutEdit
  | .gesture performed => performed.layoutEdit
  | .addItem item indexPath => .addItem item indexPath.sect

/-- UIKit raises no exception: the table counts the rows that it expects, and an item is inserted
at most behind the last row. -/
def Accepted (rows : ℕ → ℕ) (vm : GaugeConfigViewControllerViewModel) : TableEdit → Prop
  | .gesture performed => Counts ⟨some vm⟩ rows performed.taken performed.put
  | .addItem _ indexPath => indexPath.row ≤ rows indexPath.sect ∧
    Counts ⟨some vm⟩ rows (fun _ => 0) fun sect => if indexPath.sect = sect then 1 else 0

instance (rows : ℕ → ℕ) (vm : GaugeConfigViewControllerViewModel) :
    (edit : TableEdit) → Decidable (edit.Accepted rows vm)
  | .gesture performed =>
    inferInstanceAs (Decidable (Counts ⟨some vm⟩ rows performed.taken performed.put))
  | .addItem _ indexPath => inferInstanceAs (Decidable (indexPath.row ≤ rows indexPath.sect ∧
    Counts ⟨some vm⟩ rows (fun _ => 0) fun sect => if indexPath.sect = sect then 1 else 0))

/-- The view model behind an edit, where the table counted so many rows before; a trap or an
exception leaves none. -/
def perform (rows : ℕ → ℕ) (vm : GaugeConfigViewControllerViewModel) (edit : TableEdit) :
    Option GaugeConfigViewControllerViewModel :=
  match vm.perform edit.layoutEdit with
  | .error _ => none
  | .ok vm' => if edit.Accepted rows vm' then some vm' else none

/-- The sections that an edit names are those of the table. -/
def InSections : TableEdit → Prop
  | .gesture (.delete indexPath) => indexPath.sect < numberOfSections
  | .gesture (.move source destination) =>
    source.sect < numberOfSections ∧ destination.sect < numberOfSections
  | .addItem _ indexPath => indexPath.sect < numberOfSections

/-- The rows of the last count are those of the lists, and the code provides for the edit. A row
that is deleted and stays in the lists may be counted once more. -/
def Meets (rows : ℕ → ℕ) (vm : GaugeConfigViewControllerViewModel) : TableEdit → Prop
  | .gesture (.delete indexPath) => ∀ sect < numberOfSections,
    rows sect = numberOfRowsInSection ⟨some vm⟩ sect +
      if indexPath.sect = sect ∧ ¬ Foreseen ⟨some vm⟩ (.delete indexPath) then 1 else 0
  | .gesture (.move source destination) =>
    Fresh ⟨some vm⟩ rows ∧ Foreseen ⟨some vm⟩ (.move source destination)
  | .addItem _ indexPath => Fresh ⟨some vm⟩ rows ∧ indexPath.row ≤ rows indexPath.sect

end TableEdit

/-- An item that is added is one row more. -/
theorem numberOfRowsInSection_addItem (vm : GaugeConfigViewControllerViewModel)
    (item : EngineDataItem) (toSection : ℕ) {sect : ℕ} (hsect : sect < numberOfSections) :
    numberOfRowsInSection ⟨some (vm.addItem item toSection)⟩ sect =
      numberOfRowsInSection ⟨some vm⟩ sect + if toSection = sect then 1 else 0 := by
  obtain ⟨t, ht⟩ := lt_numberOfSections_iff.1 hsect
  rw [numberOfRowsInSection_eq ht, numberOfRowsInSection_eq ht]
  cases hto : LayoutSection.ofIndex toSection with
  | none =>
    have hne : toSection ≠ sect := fun heq => by simp [heq, ht] at hto
    have h0 : toSection ≠ 0 := fun h => by simp [h, LayoutSection.ofIndex] at hto
    have h1 : toSection ≠ 1 := fun h => by simp [h, LayoutSection.ofIndex] at hto
    rw [addItem, if_neg h0, if_neg h1, if_neg hne, layout_gaugeConfigChanged]
  | some to' =>
    have hadd : Function.update vm.layout to' (vm.layout to' ++ [item]) =
      (vm.addItem item toSection).layout := Option.some.inj (addItem_refines hto)
    rw [← hadd, if_congr (LayoutSection.ofIndex_inj hto ht).symm rfl rfl]
    by_cases heq : to' = t
    · subst heq
      simp
    · simp [heq, Ne.symm heq]

theorem perform_eq_some {rows : ℕ → ℕ} {edit : TableEdit} (h : edit.perform rows vm = some vm') :
    vm.perform edit.layoutEdit = .ok vm' := by
  unfold TableEdit.perform at h
  cases hperform : vm.perform edit.layoutEdit with
  | error trap =>
    rw [hperform] at h
    cases h
  | ok vm'' =>
    rw [hperform] at h
    dsimp only at h
    split_ifs at h
    rw [Option.some.inj h]

end GaugeConfigViewController

end Rx7
