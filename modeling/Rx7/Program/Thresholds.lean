import Rx7.Program.Steps

/-!
# The thresholds of the program

The editors keep what they edit to themselves, and what the device answers for the thresholds is
not looked at. So the thresholds are in every run those that the manager begins with, one for the
rpm: what the list shows, which rows open a page, and what a page sets its editors up for, however
often it did so before (`thresholds_fixed`).
-/

namespace Rx7.Program

open Bluetooth Transition

/-- The row of an item in the list. -/
def thresholdRow : EngineDataItem → ThresholdConfigTableViewCellViewModel
  | .rpm => {
    title := EngineDataItem.rpm.title
    warningValue := "Warn >8000.0"
    criticalValue := "Critical >8500.0" }
  | item => { title := item.title }

/-- What a page is opened for. -/
def rpmViewModel : EditThresholdViewControllerViewModel where
  dataItem := .rpm
  editParameters := EngineDataItem.rpm.editThresholdParameters
  currentValue := ThresholdConfigManager.defaultThreshold

/-- The item that a cell of the list is handed out for. -/
def cellItem (cell : ℕ) : Event → Option EngineDataItem
  | .input (.thresholdCellForRowAt cell' row) =>
    if cell' = cell then EngineDataItem.ofRawValue row else none
  | _ => none

/-- The row of the rpm is selected. -/
def selectsRpm : Event → Bool
  | .input (.thresholdDidSelectRowAt row) => EngineDataItem.ofRawValue row = some .rpm
  | _ => false

section

variable {uikit : UIKit} {describe : CBUUID → String} {s t : Program} {e : Event}
  {events : List Event} {parts parts' : Parts}

/-- The manager has the thresholds that it began with. -/
def Default (parts : Parts) : Prop :=
  ∀ manager ∈ parts.thresholdManager,
    manager.thresholds = (ThresholdConfigManager.create : ThresholdConfigManager Empty).thresholds

theorem getThreshold_create (item : EngineDataItem) :
    (ThresholdConfigManager.create : ThresholdConfigManager Empty).getThreshold item =
      if item = .rpm then some ThresholdConfigManager.defaultThreshold else none := by
  exact Function.update_apply (fun _ => none) EngineDataItem.rpm _ item

theorem Default.getThreshold (h : Default parts) (item : EngineDataItem) :
    parts.thresholdConfigManager.1.getThreshold item =
      if item = .rpm then some ThresholdConfigManager.defaultThreshold else none := by
  rw [← getThreshold_create]
  unfold Parts.thresholdConfigManager
  cases hm : parts.thresholdManager with
  | none => rfl
  | some manager => exact congrFun (h manager hm) item

theorem Default.thresholdConfigManager (h : Default parts) :
    Default { parts with thresholdManager := some parts.thresholdConfigManager.1 } := by
  intro manager hmanager
  obtain rfl := Option.some.inj hmanager
  unfold Parts.thresholdConfigManager
  cases hm : parts.thresholdManager with
  | none => rfl
  | some manager => exact h manager hm

theorem ofDataItem_default (item : EngineDataItem) :
    ThresholdConfigTableViewCellViewModel.ofDataItem item
      (if item = .rpm then some ThresholdConfigManager.defaultThreshold else none) =
        thresholdRow item := by
  cases item with
  | rpm => decide +kernel
  | _ => rfl

/-- A closure marks the fetch at most. -/
theorem thresholds_invoke {k : Closure} {value : Option Data}
    (h : k.invoke value parts = some parts') :
    (parts'.thresholdManager = parts.thresholdManager ∨
      parts'.thresholdManager = parts.thresholdManager.map (·.initializeWithData.1)) ∧
    parts'.thresholdCells = parts.thresholdCells ∧
    parts'.thresholdPages = parts.thresholdPages := by
  cases k with
  | engineData =>
    obtain ⟨dashboard, -, rfl⟩ := Option.map_eq_some_iff.1 h
    exact ⟨.inl rfl, rfl, rfl⟩
  | initializeThresholds =>
    cases value with
    | none =>
      obtain rfl := Option.some.inj h
      exact ⟨.inl rfl, rfl, rfl⟩
    | some data =>
      obtain rfl := Option.some.inj h
      exact ⟨.inr rfl, rfl, rfl⟩
  | load editor =>
    cases value with
    | none =>
      obtain rfl := Option.some.inj h
      exact ⟨.inl rfl, rfl, rfl⟩
    | some data =>
      simp only [Closure.invoke] at h
      cases hparse : parts.layout.parseResponse data with
      | error trap =>
        rw [hparse] at h
        cases h
      | ok layout =>
        rw [hparse] at h
        obtain rfl := Option.some.inj h
        exact ⟨.inl rfl, rfl, rfl⟩
  | noOp | saved editor =>
    obtain rfl := Option.some.inj h
    exact ⟨.inl rfl, rfl, rfl⟩

theorem thresholds_initializeWithData (manager : ThresholdConfigManager Empty) :
    manager.initializeWithData.1.thresholds = manager.thresholds := by
  unfold ThresholdConfigManager.initializeWithData
  dsimp only
  split <;> rfl

theorem viewModel_viewWillAppear {controller controller' : EditThresholdViewController}
    (h : controller.viewWillAppear uikit = some controller') :
    controller'.viewModel = controller.viewModel := by
  unfold EditThresholdViewController.viewWillAppear at h
  cases hviewModel : controller.viewModel with
  | none =>
    rw [hviewModel] at h
    rw [← Option.some.inj h, hviewModel]
  | some viewModel =>
    rw [hviewModel] at h
    obtain ⟨warningEditor, -, h⟩ := Option.bind_eq_some_iff.1 h
    obtain ⟨criticalEditor, -, h⟩ := Option.bind_eq_some_iff.1 h
    rw [← Option.some.inj h]

theorem viewModel_edit {controller controller' : EditThresholdViewController}
    {type : ThresholdType} {event : EditThresholdView.Event}
    (h : controller.edit uikit type event = some controller') :
    controller'.viewModel = controller.viewModel := by
  cases type with
  | warning | critical =>
    obtain ⟨editor, -, rfl⟩ := Option.map_eq_some_iff.1 h
    rfl

theorem map_viewModel_set {pages : List EditThresholdViewController} {page : ℕ}
    {controller controller' : EditThresholdViewController} (h : pages[page]? = some controller)
    (hviewModel : controller'.viewModel = controller.viewModel) :
    (pages.set page controller').map (·.viewModel) = pages.map (·.viewModel) := by
  refine List.ext_getElem? fun index => ?_
  rw [List.getElem?_map, List.getElem?_map, List.getElem?_set]
  split_ifs with hpage hlt
  · rw [← hpage, h, Option.map_some, Option.map_some, hviewModel]
  · rw [← hpage, List.getElem?_eq_none (Nat.le_of_not_lt hlt)]
  · rfl

/-- What is fixed of the thresholds behind a run. -/
structure Fixed (events : List Event) (parts : Parts) : Prop where
  manager : Default parts
  cells : ∀ cell, parts.thresholdCells cell =
    (events.filterMap (cellItem cell)).getLast?.map thresholdRow
  pages : parts.thresholdPages.map (·.viewModel) =
    List.replicate (events.countP selectsRpm) (some rpmViewModel)

/-- A closure leaves it fixed. -/
theorem Fixed.appAfter {called : Option (Closure × Option Data)} (hs : Fixed events parts)
    (h : System.appAfter Closure.invoke parts called = some parts') : Fixed events parts' := by
  cases called with
  | none => exact Option.some.inj h ▸ hs
  | some call =>
    obtain ⟨hmanager, hcells, hpages⟩ := thresholds_invoke h
    refine ⟨?_, by rw [hcells]; exact hs.cells, by rw [hpages]; exact hs.pages⟩
    rcases hmanager with hmanager | hmanager
    · rw [Default, hmanager]
      exact hs.manager
    · rw [Default, hmanager]
      intro manager hmem
      obtain ⟨manager', hmanager', rfl⟩ := Option.mem_map.1 hmem
      rw [thresholds_initializeWithData]
      exact hs.manager manager' hmanager'

/-- An event that neither hands a cell out nor opens a page. -/
theorem Fixed.snoc (hs : Fixed events parts) (hcell : ∀ cell, cellItem cell e = none)
    (hselect : selectsRpm e = false) (hmanager : Default parts')
    (hcells : parts'.thresholdCells = parts.thresholdCells)
    (hpages : parts'.thresholdPages.map (·.viewModel) = parts.thresholdPages.map (·.viewModel)) :
    Fixed (events ++ [e]) parts' := by
  refine ⟨hmanager, fun cell => ?_, ?_⟩
  · rw [hcells, List.filterMap_append, List.filterMap_cons_none (hcell cell), List.filterMap_nil,
      List.append_nil]
    exact hs.cells cell
  · rw [hpages, List.countP_append, List.countP_cons_of_neg (by simp [hselect]), List.countP_nil]
    exact hs.pages

theorem Fixed.perform {input : Input} {call : Option (Call Closure)} (hs : Fixed events parts)
    (h : Performs uikit parts input parts' call) : Fixed (events ++ [.input input]) parts' := by
  cases h with
  | noCell cell hrow =>
    exact hs.snoc (fun cell' => by simp [cellItem, hrow]) rfl hs.manager rfl rfl
  | @cell cell row dataItem hrow =>
    refine ⟨hs.manager.thresholdConfigManager, fun cell' => ?_, ?_⟩
    · show Function.update parts.thresholdCells cell _ cell' = _
      rw [hs.manager.getThreshold, ofDataItem_default, List.filterMap_append]
      by_cases hcell : cell' = cell
      · have hitem : cellItem cell' (.input (.thresholdCellForRowAt cell row)) = some dataItem := by
          simp [cellItem, hcell, hrow]
        rw [List.filterMap_cons_some hitem, List.filterMap_nil, List.getLast?_concat,
          Option.map_some, hcell, Function.update_self]
      · have hitem : cellItem cell' (.input (.thresholdCellForRowAt cell row)) = none :=
          if_neg (Ne.symm hcell)
        rw [Function.update_of_ne hcell, List.filterMap_cons_none hitem, List.filterMap_nil,
          List.append_nil]
        exact hs.cells cell'
    · rw [List.countP_append, List.countP_cons_of_neg (by simp [selectsRpm]), List.countP_nil]
      exact hs.pages
  | noItem hrow =>
    exact hs.snoc (fun _ => rfl) (by simp [selectsRpm, hrow]) hs.manager rfl rfl
  | @noThreshold row dataItem hrow hthreshold =>
    have hitem : dataItem ≠ .rpm := by
      rintro rfl
      rw [hs.manager.getThreshold, if_pos rfl] at hthreshold
      cases hthreshold
    exact hs.snoc (fun _ => rfl) (by simp [selectsRpm, hrow, hitem])
      hs.manager.thresholdConfigManager rfl rfl
  | @opensPage row dataItem threshold hrow hthreshold =>
    rw [hs.manager.getThreshold] at hthreshold
    split_ifs at hthreshold with hitem
    obtain rfl := Option.some.inj hthreshold
    obtain rfl := hitem
    refine ⟨hs.manager.thresholdConfigManager, fun cell => ?_, ?_⟩
    · rw [List.filterMap_append, List.filterMap_cons_none rfl, List.filterMap_nil, List.append_nil]
      exact hs.cells cell
    · rw [List.map_append, hs.pages, List.countP_append,
        List.countP_cons_of_pos (by simp [selectsRpm, hrow]), List.countP_nil,
        List.replicate_succ']
      rfl
  | pageWillAppear hpage happear =>
    exact hs.snoc (fun _ => rfl) rfl hs.manager rfl
      (map_viewModel_set hpage (viewModel_viewWillAppear happear))
  | editsThreshold hevent hpage hedit =>
    exact hs.snoc (fun _ => rfl) rfl hs.manager rfl
      (map_viewModel_set hpage (viewModel_edit hedit))
  | _ => exact hs.snoc (fun _ => rfl) rfl hs.manager rfl rfl

theorem fixed_step (hs : Fixed events s.app) (h : step uikit describe s e = some t) :
    Fixed (events ++ [e]) t.app := by
  rcases parts_cases h with ⟨event, called, parts, dashboard, rfl, -, happ, ht⟩ |
    ⟨input, call, called, parts, rfl, hperform, happ⟩
  · have hparts := hs.appAfter happ
    rw [ht]
    exact hparts.snoc (fun _ => rfl) rfl hparts.manager rfl rfl
  · exact (hs.perform hperform).appAfter happ

theorem fixed_run (h : Run (ofPartial (step uikit describe)) launch events s) :
    Fixed events s.app := by
  induction h with
  | nil => exact ⟨fun _ hmanager => (by cases hmanager), fun _ => rfl, rfl⟩
  | snoc _ hs ih => exact fixed_step ih hs

/-- **The thresholds are fixed.** In every run, whatever the device answers and whatever is edited,
the manager has the one threshold that it began with, a cell of the list shows the row of the item
it was handed out for last with that threshold, and each selection of the rpm's row, and no other,
opens a page for it. -/
theorem thresholds_fixed (h : Run (ofPartial (step uikit describe)) launch events s) :
    (∀ manager ∈ s.app.thresholdManager, ∀ item, manager.getThreshold item =
      if item = .rpm then some ThresholdConfigManager.defaultThreshold else none) ∧
    (∀ cell, s.app.thresholdCells cell =
      (events.filterMap (cellItem cell)).getLast?.map thresholdRow) ∧
    s.app.thresholdPages.map (·.viewModel) =
      List.replicate (events.countP selectsRpm) (some rpmViewModel) := by
  have hfixed := fixed_run h
  refine ⟨fun manager hmanager item => ?_, hfixed.cells, hfixed.pages⟩
  rw [ThresholdConfigManager.getThreshold, hfixed.manager manager hmanager]
  exact getThreshold_create item

/-- The rows of the rpm and of the knock are handed out, and selected. -/
def selectRows : List Event :=
  [.input (.thresholdCellForRowAt 0 0), .input (.thresholdCellForRowAt 1 3),
    .input (.thresholdDidSelectRowAt 3), .input (.thresholdDidSelectRowAt 0)]

theorem thresholds_fixed_selectRows :
    ∃ s, Run (ofPartial (step .clamping CBUUID.uuidString)) launch selectRows s ∧
      (∀ manager ∈ s.app.thresholdManager, ∀ item, manager.getThreshold item =
        if item = .rpm then some ThresholdConfigManager.defaultThreshold else none) ∧
      (∀ cell, s.app.thresholdCells cell =
        (selectRows.filterMap (cellItem cell)).getLast?.map thresholdRow) ∧
      s.app.thresholdPages.map (·.viewModel) =
        List.replicate (selectRows.countP selectsRpm) (some rpmViewModel) := by
  have hrun : Run (ofPartial (step .clamping CBUUID.uuidString)) launch selectRows _ :=
    Run.of_foldlM rfl
  exact ⟨_, hrun, thresholds_fixed hrun⟩

/-! ## The pages -/

open EditThresholdView in
/-- The editor of a page was never set up, or was for an item of the rpm's threshold, and edited. -/
def Kept (type : ThresholdType) (value : ThresholdItem) (view : EditThresholdView) : Prop :=
  view.viewModel = none ∧ Ready view.stepper ∨
    ∃ u post viewModel, Edited u type .rpm value post view viewModel

structure KeptPage (page : EditThresholdViewController) : Prop where
  viewModel : page.viewModel = some rpmViewModel
  warning : Kept .warning ThresholdConfigManager.defaultThreshold.warning page.warningEditor
  critical : Kept .critical ThresholdConfigManager.defaultThreshold.critical page.criticalEditor

theorem offers_default :
    EditThresholdView.Offers .rpm ThresholdConfigManager.defaultThreshold.warning.value ∧
      EditThresholdView.Offers .rpm ThresholdConfigManager.defaultThreshold.critical.value := by
  have hoffers : ∀ n : ℤ, 0 ≤ n → n ≤ 3000 → EditThresholdView.Offers .rpm (n * 10) := by
    intro n hn hle
    have hn' : (0 : ℚ) ≤ n := by exact_mod_cast hn
    have hle' : (n : ℚ) ≤ 3000 := by exact_mod_cast hle
    refine ⟨?_, ?_, n, ?_⟩ <;>
      norm_num [EngineDataItem.editThresholdParameters, EditThresholdParameters.ofInt] <;> linarith
  have hwarning := hoffers 800 (by decide) (by decide)
  have hcritical := hoffers 850 (by decide) (by decide)
  norm_num at hwarning hcritical
  exact ⟨hwarning, hcritical⟩

theorem Kept.ready {type : ThresholdType} {value : ThresholdItem} {view : EditThresholdView}
    (h : Kept type value view) : EditThresholdView.Ready view.stepper := by
  rcases h with ⟨-, hready⟩ | ⟨u, post, viewModel, h⟩
  · exact hready
  · rw [h.stepper]
    exact EditThresholdView.ready_stepperAt .rpm _

theorem Kept.setUp {type : ThresholdType} {value : ThresholdItem} {view : EditThresholdView}
    (h : Kept type value view) (uikit : UIKit)
    (hvalue : EditThresholdView.Offers .rpm value.value) :
    ∃ view', view.step uikit (.setUp type .rpm value) = some view' ∧
      Kept type value view' := by
  obtain ⟨view', hstep⟩ : ∃ view', view.step uikit (.setUp type .rpm value) = some view' :=
    (EditThresholdView.exists_step_iff h.ready).2 (EditThresholdView.fits_of_offers hvalue)
  exact ⟨view', hstep, .inr ⟨view', [], _, EditThresholdView.edited_setUp hstep hvalue⟩⟩

theorem Kept.edit {type : ThresholdType} {value : ThresholdItem} {view : EditThresholdView}
    {event : EditThresholdView.Event} (h : Kept type value view) (hevent : event.isSetUp = false) :
    ∃ view', view.step uikit event = some view' ∧ Kept type value view' := by
  have hfits : event.Fits := by
    cases event with
    | setUp type item value => cases hevent
    | stepperTapped up | toggleTapped | segmentTapped index | typed text => trivial
  obtain ⟨view', hstep⟩ : ∃ view', view.step uikit event = some view' :=
    (EditThresholdView.exists_step_iff h.ready).2 hfits
  refine ⟨view', hstep, ?_⟩
  have hready := EditThresholdView.ready_step h.ready hstep
  rcases h with ⟨hnone, -⟩ | ⟨u, post, viewModel, h⟩
  · exact .inl ⟨EditThresholdView.viewModel_of_none hnone hevent hstep, hready⟩
  · obtain ⟨viewModel', h'⟩ := EditThresholdView.edited_step rfl h hevent hstep
    exact .inr ⟨u, post ++ [event], viewModel', h'⟩

/-- A page sets its editors up without a trap or an exception. -/
theorem KeptPage.viewWillAppear {page : EditThresholdViewController} (h : KeptPage page) :
    ∃ page', page.viewWillAppear uikit = some page' ∧ KeptPage page' := by
  obtain ⟨warningEditor, hwarning, hw⟩ := h.warning.setUp uikit offers_default.1
  obtain ⟨criticalEditor, hcritical, hc⟩ := h.critical.setUp uikit offers_default.2
  refine ⟨{ page with warningEditor, criticalEditor }, ?_, ⟨h.viewModel, hw, hc⟩⟩
  have hwarning' : page.warningEditor.setViewModel uikit (.ofItem .warning
      rpmViewModel.currentValue.warning rpmViewModel.editParameters) = some warningEditor :=
    hwarning
  have hcritical' : page.criticalEditor.setViewModel uikit (.ofItem .critical
      rpmViewModel.currentValue.critical rpmViewModel.editParameters) = some criticalEditor :=
    hcritical
  simp only [EditThresholdViewController.viewWillAppear, h.viewModel, hwarning', hcritical']
  rfl

theorem KeptPage.edit {page : EditThresholdViewController} (h : KeptPage page)
    (type : ThresholdType) {event : EditThresholdView.Event} (hevent : event.isSetUp = false) :
    ∃ page', page.edit uikit type event = some page' ∧ KeptPage page' := by
  cases type with
  | warning =>
    obtain ⟨warningEditor, hwarning, hw⟩ := h.warning.edit hevent
    refine ⟨{ page with warningEditor }, ?_, ⟨h.viewModel, hw, h.critical⟩⟩
    rw [EditThresholdViewController.edit, hwarning, Option.map_some]
  | critical =>
    obtain ⟨criticalEditor, hcritical, hc⟩ := h.critical.edit hevent
    refine ⟨{ page with criticalEditor }, ?_, ⟨h.viewModel, h.warning, hc⟩⟩
    rw [EditThresholdViewController.edit, hcritical, Option.map_some]

theorem keptPages_perform {input : Input} {call : Option (Call Closure)}
    (hs : ∀ page ∈ parts.thresholdPages, KeptPage page) (hdefault : Default parts)
    (h : Performs uikit parts input parts' call) :
    ∀ page ∈ parts'.thresholdPages, KeptPage page := by
  cases h with
  | @opensPage row dataItem threshold hrow hthreshold =>
    rw [hdefault.getThreshold] at hthreshold
    split_ifs at hthreshold with hitem
    obtain rfl := Option.some.inj hthreshold
    obtain rfl := hitem
    rw [List.forall_mem_append, List.forall_mem_singleton]
    exact ⟨hs, rfl, .inl ⟨rfl, EditThresholdView.ready_default⟩,
      .inl ⟨rfl, EditThresholdView.ready_default⟩⟩
  | pageWillAppear hpage happear =>
    intro page hmem
    rcases List.mem_or_eq_of_mem_set hmem with hmem | rfl
    · exact hs page hmem
    · obtain ⟨page', happear', hkept⟩ := (hs _ (List.mem_of_getElem? hpage)).viewWillAppear
      exact Option.some.inj (happear'.symm.trans happear) ▸ hkept
  | @editsThreshold index type event controller controller' hevent hpage hedit =>
    intro page hmem
    rcases List.mem_or_eq_of_mem_set hmem with hmem | rfl
    · exact hs page hmem
    · obtain ⟨page', hedit', hkept⟩ := (hs _ (List.mem_of_getElem? hpage)).edit type hevent
      exact Option.some.inj (hedit'.symm.trans hedit) ▸ hkept
  | _ => exact hs

/-- A closure leaves the pages as they are. -/
theorem thresholdPages_appAfter {called : Option (Closure × Option Data)}
    (h : System.appAfter Closure.invoke parts called = some parts') :
    parts'.thresholdPages = parts.thresholdPages := by
  cases called with
  | none => rw [Option.some.inj h]
  | some call => exact (thresholds_invoke h).2.2

theorem keptPages_run (h : Run (ofPartial (step uikit describe)) launch events s) :
    ∀ page ∈ s.app.thresholdPages, KeptPage page := by
  induction h with
  | nil => exact fun _ hpage => (by cases hpage)
  | snoc hrun hs ih =>
    rcases parts_cases hs with ⟨event, called, parts, dashboard, rfl, -, happ, ht⟩ |
      ⟨input, call, called, parts, rfl, hperform, happ⟩
    · rw [ht]
      exact thresholdPages_appAfter happ ▸ ih
    · rw [thresholdPages_appAfter happ]
      exact keptPages_perform ih (fixed_run hrun).manager hperform

def editorOf (page : EditThresholdViewController) : ThresholdType → EditThresholdView
  | .warning => page.warningEditor
  | .critical => page.criticalEditor

theorem kept_editorOf {page : EditThresholdViewController} (h : KeptPage page)
    (type : ThresholdType) : ∃ value, Kept type value (editorOf page type) := by
  cases type with
  | warning => exact ⟨_, h.warning⟩
  | critical => exact ⟨_, h.critical⟩

/-- **What the editors of the pages hold.** In every run, each editor of each page that was set up
edits the rpm in its bounds and steps: its stepper, its view model and its switch agree, and the
value is one at which the stepper stops. -/
theorem pages_edit_rpm (h : Run (ofPartial (step uikit describe)) launch events s) :
    ∀ page ∈ s.app.thresholdPages, ∀ type, ∀ viewModel ∈ (editorOf page type).viewModel,
      viewModel.type = type ∧
        viewModel.editParameters = EngineDataItem.rpm.editThresholdParameters ∧
        (editorOf page type).stepper =
          EditThresholdView.stepperAt .rpm viewModel.currentValue ∧
        EditThresholdView.Offers .rpm viewModel.currentValue ∧
        (editorOf page type).toggleIsOn = viewModel.currentEnabled := by
  intro page hpage type viewModel hviewModel
  obtain ⟨value, hkept⟩ := kept_editorOf (keptPages_run h page hpage) type
  rcases hkept with ⟨hnone, -⟩ | ⟨u, post, viewModel', hedited⟩
  · rw [hnone] at hviewModel
    cases hviewModel
  · obtain rfl := Option.some.inj (hedited.viewModel_eq.symm.trans hviewModel)
    exact ⟨hedited.type_eq, hedited.parameters_eq, hedited.stepper, hedited.offers, hedited.toggle⟩

/-- The stepper of a page can be tapped. -/
theorem exists_stepperTapped (h : Run (ofPartial (step uikit describe)) launch events s)
    (hidle : s.Idle) {index : ℕ} {page : EditThresholdViewController}
    (hpage : s.app.thresholdPages[index]? = some page) (type : ThresholdType) (up : Bool) :
    ∃ t, step uikit describe s (.input (.editThreshold index type (.stepperTapped up))) =
      some t := by
  obtain ⟨page', hedit, -⟩ : ∃ page', page.edit uikit type (.stepperTapped up) = some page' ∧
      KeptPage page' := (keptPages_run h page (List.mem_of_getElem? hpage)).edit type rfl
  have hperform : s.app.perform uikit (.editThreshold index type (.stepperTapped up)) = some
      ({ s.app with thresholdPages := s.app.thresholdPages.set index page' }, none) := by
    simp only [Parts.perform, EditThresholdView.Event.isSetUp, Bool.false_eq_true, if_false, hpage,
      hedit, Option.bind_eq_bind, Option.bind_some, Option.pure_def]
  simp only [step, if_pos hidle, hperform, Option.bind_eq_bind, Option.bind_some, Option.pure_def]
  exact ⟨_, rfl⟩

/-- The page of the rpm is opened, and appears. -/
def openPage : List Event :=
  [.input (.thresholdCellForRowAt 0 0), .input .thresholdListDidAppear,
    .input (.thresholdDidSelectRowAt 0), .input (.thresholdPageWillAppear 0)]

/-- Its warning is raised by a step. -/
def raiseWarning : Event := .input (.editThreshold 0 .warning (.stepperTapped true))

theorem pages_edit_rpm_raiseWarning :
    ∃ s, Run (ofPartial (step .clamping CBUUID.uuidString)) launch (openPage ++ [raiseWarning]) s ∧
      s.app.thresholdPages.length = 1 ∧
      ∀ page ∈ s.app.thresholdPages, ∀ type, ∀ viewModel ∈ (editorOf page type).viewModel,
        viewModel.type = type ∧
          viewModel.editParameters = EngineDataItem.rpm.editThresholdParameters ∧
          (editorOf page type).stepper =
            EditThresholdView.stepperAt .rpm viewModel.currentValue ∧
          EditThresholdView.Offers .rpm viewModel.currentValue ∧
          (editorOf page type).toggleIsOn = viewModel.currentEnabled := by
  obtain ⟨s, page, hrun, hidle, hpage⟩ : ∃ s page,
      Run (ofPartial (step .clamping CBUUID.uuidString)) launch openPage s ∧ s.Idle ∧
        s.app.thresholdPages[0]? = some page :=
    ⟨_, _, Run.of_foldlM rfl, ⟨rfl, rfl⟩, rfl⟩
  obtain ⟨t, ht⟩ := exists_stepperTapped hrun hidle hpage .warning true
  have hrun' : Run (ofPartial (step .clamping CBUUID.uuidString)) launch
      (openPage ++ [raiseWarning]) t := hrun.snoc ht
  have hlength := congrArg List.length (fixed_run hrun').pages
  rw [List.length_map, List.length_replicate] at hlength
  exact ⟨t, hrun', hlength, pages_edit_rpm hrun'⟩

end

end Rx7.Program
