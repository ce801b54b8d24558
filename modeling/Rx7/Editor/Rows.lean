import Rx7.Editor.Layout

/-!
# Edits of single rows

The view model's methods name the row that they edit by its index path. A row is added behind the
last one of its section, deleted, or moved to another place (`RowEdit`, `moveItem`).

* `exact_iff`: which additions and deletions change the row they name and no other. A path of the
  monitors takes neither branch of `deleteItem`, which asks for the section of the gauges twice.
* `moveItem_reversible`: a move to a place in range takes nothing but its row along, loses none,
  and is undone by the move back.
-/

namespace Rx7

namespace LayoutSection

def index : LayoutSection → ℕ
  | gauges => 0
  | monitors => 1

@[simp] theorem ofIndex_index (s : LayoutSection) : ofIndex s.index = some s := by
  cases s <;> rfl

end LayoutSection

/-- An edit of one row: an item added to a section, the row at a path deleted, or an item added and
the new last row deleted after it. -/
inductive RowEdit
  | add (item : EngineDataItem) (s : LayoutSection)
  | delete (path : IndexPath)
  | addThenDelete (item : EngineDataItem) (s : LayoutSection)

open GaugeConfigViewControllerViewModel

namespace RowEdit

variable {vm : GaugeConfigViewControllerViewModel}

/-- The edit changes the row that it names and no other; where it names none, it changes
nothing. -/
def Exact (vm : GaugeConfigViewControllerViewModel) : RowEdit → Prop
  | .add item s =>
    (vm.addItem item s.index).layout = Function.update vm.layout s (vm.layout s ++ [item])
  | .delete path => ∃ vm', vm.deleteItem path = .ok vm' ∧
    if (vm.getItem path).isSome then
      vm'.layout = vm.layout.without path ∧ vm'.configHasChanged = true
    else vm'.layout = vm.layout ∧ vm'.configHasChanged = vm.configHasChanged
  | .addThenDelete item s => ∃ vm',
    (vm.addItem item s.index).deleteItem ⟨(vm.layout s).length, s.index⟩ = .ok vm' ∧
      vm'.layout = vm.layout

/-- What the code provides for: any item is added, and a gauge is deleted. Elsewhere a deletion
does no harm where there is no row to delete and the layout is marked as changed already. -/
def Foreseen (vm : GaugeConfigViewControllerViewModel) : RowEdit → Prop
  | .add _ _ => True
  | .delete path => path.sect = 0 ∨ vm.getItem path = none ∧ vm.configHasChanged = true
  | .addThenDelete _ s => s = .gauges

theorem add_exact (item : EngineDataItem) (s : LayoutSection) : (add item s).Exact vm :=
  (Option.some.inj (addItem_refines (LayoutSection.ofIndex_index s))).symm

/-- The lists differ in length from those without a row that is there. -/
theorem layout_ne_without {path : IndexPath} {item : EngineDataItem}
    (h : vm.getItem path = some item) : vm.layout ≠ vm.layout.without path := by
  obtain ⟨s, hs, hx⟩ := getItem_eq_some_iff.1 h
  obtain ⟨hlt, -⟩ := List.getElem?_eq_some_iff.1 hx
  intro he
  have hlength := congrArg List.length (congrFun he s)
  rw [Layout.without_eq hs, Function.update_self, List.length_eraseIdx_of_lt hlt] at hlength
  omega

theorem delete_exact_iff (path : IndexPath) :
    (delete path).Exact vm ↔ (delete path).Foreseen vm := by
  unfold Exact Foreseen
  by_cases hs : path.sect = 0
  · refine iff_of_true ?_ (.inl hs)
    by_cases hrow : path.row < vm.gauges.length
    · have hget : (vm.getItem path).isSome = true := by simp [getItem, hs, hrow]
      exact ⟨_, deleteItem_of_lt hs hrow, by simp [hget]⟩
    · have hget : (vm.getItem path).isSome = false := by simp [getItem, hs, hrow]
      exact ⟨vm, deleteItem_of_le hs (not_lt.1 hrow), by simp [hget]⟩
  · simp only [deleteItem_of_ne_zero hs, Except.ok.injEq, exists_eq_left', hs, false_or,
      layout_gaugeConfigChanged, configHasChanged_gaugeConfigChanged]
    cases hget : vm.getItem path with
    | none => simp only [Option.isSome_none, Bool.false_eq_true, if_false, true_and, eq_comm]
    | some item => simp [layout_ne_without hget]

/-- The new last row is the added one. -/
theorem without_addItem (item : EngineDataItem) (s : LayoutSection) :
    (vm.addItem item s.index).layout.without ⟨(vm.layout s).length, s.index⟩ = vm.layout := by
  rw [Layout.without_eq (LayoutSection.ofIndex_index s), add_exact item s, Function.update_self,
    Function.update_idem, List.eraseIdx_append_of_length_le le_rfl, Nat.sub_self,
    List.eraseIdx_cons_zero, List.append_nil, Function.update_eq_self]

theorem addThenDelete_exact_iff (item : EngineDataItem) (s : LayoutSection) :
    (addThenDelete item s).Exact vm ↔ (addThenDelete item s).Foreseen vm := by
  cases s with
  | gauges =>
    refine iff_of_true ?_ rfl
    have hrow : vm.gauges.length < (vm.addItem item 0).gauges.length := by
      simp [addItem, gaugeConfigChanged]
    exact ⟨_, deleteItem_of_lt rfl hrow, by rw [layout_edited]; exact without_addItem item .gauges⟩
  | monitors =>
    refine iff_of_false ?_ (by simp [Foreseen])
    rintro ⟨vm', h, hlayout⟩
    rw [deleteItem_of_ne_zero Nat.one_ne_zero] at h
    obtain rfl := Except.ok.inj h
    rw [layout_gaugeConfigChanged, add_exact item .monitors] at hlayout
    have hlength := congrArg List.length (congrFun hlayout .monitors)
    rw [Function.update_self, List.length_append, List.length_singleton] at hlength
    omega

/-- **Exactly which additions and deletions edit the row they name.** All additions do; a deletion
does for every path of the gauges, and elsewhere only where it names no row of a layout that is
marked as changed already; and it undoes an addition exactly among the gauges. -/
theorem exact_iff (vm : GaugeConfigViewControllerViewModel) (edit : RowEdit) :
    edit.Exact vm ↔ edit.Foreseen vm := by
  cases edit with
  | add item s => exact iff_of_true (add_exact item s) trivial
  | delete path => exact delete_exact_iff path
  | addThenDelete item s => exact addThenDelete_exact_iff item s

/-- The only monitor is not deleted. -/
theorem not_exact : ¬ ∀ (vm : GaugeConfigViewControllerViewModel) (edit : RowEdit),
    edit.Exact vm := by
  intro h
  obtain ⟨vm', hdelete, hlayout, -⟩ := h { monitors := [.speed] } (.delete ⟨0, 1⟩)
  cases hdelete
  have hmonitors : ([.speed] : List EngineDataItem) = [] := congrFun hlayout .monitors
  cases hmonitors

end RowEdit

namespace GaugeConfigViewControllerViewModel

open Sections (Edit)

variable {vm : GaugeConfigViewControllerViewModel}

theorem rows_layout : Sections.rows vm.layout = ↑(vm.gauges ++ vm.monitors) := by
  have huniv : (Finset.univ : Finset LayoutSection) = {.gauges, .monitors} := rfl
  rw [Sections.rows, huniv, Finset.sum_pair (by decide), Multiset.coe_add]
  rfl

/-- **A move is a reversible permutation.** The item at a path is moved to any path in range once
it has been taken out. It is then found there, the other items stay in their sections and in
their order, no item is lost or made, and the move back restores both lists. -/
theorem moveItem_reversible {source destination : IndexPath} {s : LayoutSection}
    {x : EngineDataItem} (hx : vm.getItem source = some x)
    (hs : LayoutSection.ofIndex destination.sect = some s)
    (hrow : destination.row ≤ (vm.layout.without source s).length) :
    ∃ vm', vm.moveItem source destination = .ok vm' ∧
      vm'.getItem destination = some x ∧
      vm'.layout.without destination = vm.layout.without source ∧
      (vm'.gauges ++ vm'.monitors).Perm (vm.gauges ++ vm.monitors) ∧
      ∃ vm'', vm'.moveItem destination source = .ok vm'' ∧
        vm''.gauges = vm.gauges ∧ vm''.monitors = vm.monitors := by
  obtain ⟨s₀, hs₀, hx⟩ := getItem_eq_some_iff.1 hx
  have htake : Sections.take vm.layout (s₀, source.row) = some (x, vm.layout.without source) :=
    Layout.take_eq_without hs₀ hx
  obtain ⟨l, hput⟩ : ∃ l, Sections.put (vm.layout.without source) (s, destination.row) x = some l :=
    ⟨_, Sections.put_eq_some_iff.2 ⟨hrow, rfl⟩⟩
  have hmove : (Edit.move (s₀, source.row) (s, destination.row)).apply vm.layout = some l :=
    Sections.apply_move_eq_some_iff.2 ⟨x, _, htake, hput⟩
  obtain ⟨hdest, hrest⟩ := Sections.take_eq_some_iff.1 (Sections.take_of_put hput)
  refine ⟨vm.edited l, (moveItem_eq_ok_iff hs₀ hs).2 ⟨l, hmove, rfl⟩, ?_, ?_, ?_, ?_⟩
  · exact getItem_eq_some_iff.2 ⟨s, hs, by rwa [layout_edited]⟩
  · rw [layout_edited, Layout.without_eq hs, hrest]
  · rw [← Multiset.coe_eq_coe, ← rows_layout, ← rows_layout, layout_edited,
      Sections.rows_move hmove]
  · refine ⟨(vm.edited l).edited vm.layout, (moveItem_eq_ok_iff hs hs₀).2 ⟨_, ?_, rfl⟩, rfl, rfl⟩
    rw [layout_edited]
    exact Sections.apply_move_reverse hmove

/-- Two gauges and a monitor; the first gauge is moved behind the monitor. -/
theorem moveItem_reversible_rpm :
    ∃ vm', moveItem { gauges := [.rpm, .boost], monitors := [.speed] } ⟨0, 0⟩ ⟨1, 1⟩ = .ok vm' ∧
      vm'.getItem ⟨1, 1⟩ = some .rpm ∧
      vm'.layout.without ⟨1, 1⟩ = (Layout.of [.rpm, .boost] [.speed]).without ⟨0, 0⟩ ∧
      (vm'.gauges ++ vm'.monitors).Perm [.rpm, .boost, .speed] ∧
      ∃ vm'', vm'.moveItem ⟨1, 1⟩ ⟨0, 0⟩ = .ok vm'' ∧
        vm''.gauges = [.rpm, .boost] ∧ vm''.monitors = [.speed] :=
  moveItem_reversible rfl rfl (by decide)

end GaugeConfigViewControllerViewModel

end Rx7
