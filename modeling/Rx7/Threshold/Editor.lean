import Rx7.Foundations.Transition
import Rx7.Threshold.Manager
import Rx7.Threshold.Stepper
import Mathlib.Data.Nat.Bits
import Mathlib.Tactic.Ring

/-!
# The editor of a threshold

`EditThresholdView` edits one of the two items of a threshold: a switch enables it, a segmented
control sets its direction, a stepper its value, which a text field spells. Its view model keeps
what is edited (`EditThresholdViewModel`). `setViewModel` sets the view up; the program stops there
where the item is edited in integers and `Int` does not hold the value, or where the stepper raises
an exception.

The text field has no action, and the segmented control is enabled, but not selected, when the view
is set up.

* `editor_runs_iff`: nothing stops the program but a set-up with a value that `Int` does not hold.
* `editor_edits`: what an editor holds behind its set-up.
-/

namespace Rx7

open Transition

structure EditThresholdViewModel where
  type : ThresholdType
  editParameters : EditThresholdParameters
  currentValue : ℚ
  currentIsGreaterThan : Bool
  currentEnabled : Bool

namespace EditThresholdViewModel

/-- `init(type:value:editParameters:)`. -/
def ofItem (type : ThresholdType) (value : ThresholdItem)
    (editParameters : EditThresholdParameters) : EditThresholdViewModel where
  type
  editParameters
  currentValue := value.value
  currentIsGreaterThan := value.greaterThan
  currentEnabled := value.enabled

variable (self : EditThresholdViewModel)

def updateCurrentValue (value : ℚ) : EditThresholdViewModel := { self with currentValue := value }

def toggleEnabled (enabled : Bool) : EditThresholdViewModel :=
  { self with currentEnabled := enabled }

def toggleDirection (isGreaterThan : Bool) : EditThresholdViewModel :=
  { self with currentIsGreaterThan := isGreaterThan }

/-- The text that `setInputFieldText` sets. -/
def inputText : Option String :=
  if self.editParameters.usesIntegers then (Swift.int self.currentValue).map toString
  else some (Swift.describeDouble self.currentValue)

end EditThresholdViewModel

structure EditThresholdView where
  typeLabel : Option String := none
  toggleIsOn : Bool := true
  selectedSegmentIndex : ℕ := 0
  inputField : String := ""
  stepper : UIStepper := {}
  viewModel : Option EditThresholdViewModel := none

namespace EditThresholdView

variable (uikit : UIKit) (self : EditThresholdView)

/-- `setupStepper`. -/
def setupStepper (viewModel : EditThresholdViewModel) : Option UIStepper := do
  let stepper ← uikit.setMinimumValue self.stepper viewModel.editParameters.min
  let stepper ← uikit.setMaximumValue stepper viewModel.editParameters.max
  let stepper ← uikit.setStepValue stepper viewModel.editParameters.step
  return uikit.setValue stepper viewModel.currentValue

/-- The observer of `viewModel`; an exception or a trap leaves no view. -/
def setViewModel (viewModel : EditThresholdViewModel) : Option EditThresholdView := do
  let inputField ← viewModel.inputText
  let stepper ← self.setupStepper uikit viewModel
  return { self with
    typeLabel := some viewModel.type.rawValue.capitalize
    toggleIsOn := viewModel.currentEnabled
    inputField
    stepper
    viewModel := some viewModel }

/-! ## Gestures -/

/-- What the user does, and the view's being set up for a threshold of an item. -/
inductive Event
  | setUp (type : ThresholdType) (item : EngineDataItem) (value : ThresholdItem)
  | stepperTapped (up : Bool)
  | toggleTapped
  | segmentTapped (index : Fin 2)
  | typed (text : String)

/-- The view model's `currentValue` is sent a value, which the text field spells. -/
def updateCurrentValue (value : ℚ) : Option EditThresholdView :=
  match self.viewModel with
  | none => some self
  | some viewModel => do
    let viewModel := viewModel.updateCurrentValue value
    let inputField ← viewModel.inputText
    return { self with inputField, viewModel := some viewModel }

/-- `stepperTapped`, where the tap changes the stepper's value. -/
def stepperTapped (up : Bool) : Option EditThresholdView :=
  let stepper := uikit.tapped self.stepper up
  if stepper.value = self.stepper.value then some { self with stepper }
  else { self with stepper }.updateCurrentValue stepper.value

/-- `toggleEnabled`. -/
def toggleTapped : EditThresholdView :=
  let isOn := !self.toggleIsOn
  { self with toggleIsOn := isOn, viewModel := self.viewModel.map (·.toggleEnabled isOn) }

/-- `changeThresholdDirection`, where the tap selects another segment. -/
def segmentTapped (index : ℕ) : EditThresholdView :=
  if index = self.selectedSegmentIndex then self
  else { self with
    selectedSegmentIndex := index
    viewModel := self.viewModel.map (·.toggleDirection (index == 0)) }

/-- One event. -/
def step : Event → Option EditThresholdView
  | .setUp type item value =>
    self.setViewModel uikit (.ofItem type value item.editThresholdParameters)
  | .stepperTapped up => self.stepperTapped uikit up
  | .toggleTapped => some self.toggleTapped
  | .segmentTapped index => some (self.segmentTapped index)
  | .typed text => some { self with inputField := text }

/-! ## What stops the program, and typed texts -/

section

variable {uikit : UIKit} {s t u v : EditThresholdView} {events post : List Event} {e : Event}

/-- The bounds of every item lie on both sides of 0, so that they cannot cross those of another. -/
theorem parameters_bounds (item : EngineDataItem) :
    item.editThresholdParameters.min ≤ 0 ∧ 20 ≤ item.editThresholdParameters.max ∧
      0 < item.editThresholdParameters.step := by
  cases item <;> norm_num [EngineDataItem.editThresholdParameters, EditThresholdParameters.ofInt,
    EditThresholdParameters.ofDouble]

theorem parameters_range (item : EngineDataItem) :
    -2 ^ 15 ≤ item.editThresholdParameters.min ∧ item.editThresholdParameters.max ≤ 2 ^ 15 ∧
      item.editThresholdParameters.step ≤ 2 ^ 15 := by
  cases item <;> norm_num [EngineDataItem.editThresholdParameters, EditThresholdParameters.ofInt,
    EditThresholdParameters.ofDouble]

/-- A stepper that can be set up for any item, and whose values `Int` holds. -/
structure Ready (stepper : UIStepper) : Prop where
  le_min : -2 ^ 15 ≤ stepper.minimumValue
  min_le : stepper.minimumValue ≤ 0
  le_max : 20 ≤ stepper.maximumValue
  max_le : stepper.maximumValue ≤ 2 ^ 15

theorem ready_default : Ready {} := by
  constructor <;> norm_num

theorem Ready.congr {stepper stepper' : UIStepper} (h : Ready stepper)
    (hmin : stepper'.minimumValue = stepper.minimumValue)
    (hmax : stepper'.maximumValue = stepper.maximumValue) : Ready stepper' :=
  ⟨hmin ▸ h.le_min, hmin ▸ h.min_le, hmax ▸ h.le_max, hmax ▸ h.max_le⟩

theorem Ready.min_le_max {stepper : UIStepper} (h : Ready stepper) :
    stepper.minimumValue ≤ stepper.maximumValue := by
  linarith [h.min_le, h.le_max]

/-- The stepper of an item, at a value. -/
def stepperAt (item : EngineDataItem) (value : ℚ) : UIStepper where
  minimumValue := item.editThresholdParameters.min
  maximumValue := item.editThresholdParameters.max
  stepValue := item.editThresholdParameters.step
  value := value

theorem ready_stepperAt (item : EngineDataItem) (value : ℚ) : Ready (stepperAt item value) := by
  obtain ⟨hmin, hmax, -⟩ := parameters_bounds item
  obtain ⟨hlow, hhigh, -⟩ := parameters_range item
  exact ⟨hlow, hmin, hmax, hhigh⟩

/-- A stepper that is set up is that of the item, at the value that was clamped. -/
theorem setupStepper_eq_some {viewModel : EditThresholdViewModel} {item : EngineDataItem}
    {stepper : UIStepper} (hitem : viewModel.editParameters = item.editThresholdParameters)
    (h : s.setupStepper uikit viewModel = some stepper) :
    stepper = uikit.setValue (stepperAt item stepper.value) viewModel.currentValue := by
  obtain ⟨t, ht, h⟩ := Option.bind_eq_some_iff.1 h
  obtain ⟨u, hu, h⟩ := Option.bind_eq_some_iff.1 h
  obtain ⟨v, hv, h⟩ := Option.bind_eq_some_iff.1 h
  obtain ⟨htmin, -, -⟩ := uikit.setMinimumValue_eq_some ht
  obtain ⟨humax, humin, -⟩ := uikit.setMaximumValue_eq_some hu
  obtain ⟨hvstep, hvmin, hvmax⟩ := uikit.setStepValue_eq_some hv
  obtain rfl := Option.some.inj h
  rw [uikit.setValue_eq, uikit.setValue_eq, stepperAt, hvmin, humin, htmin, hvmax, humax, hvstep,
    hitem]

theorem exists_setupStepper (hs : Ready s.stepper) {viewModel : EditThresholdViewModel}
    {item : EngineDataItem} (hitem : viewModel.editParameters = item.editThresholdParameters) :
    ∃ stepper, s.setupStepper uikit viewModel = some stepper := by
  obtain ⟨hmin, hmax, hstep⟩ := parameters_bounds item
  have hold : item.editThresholdParameters.min < s.stepper.maximumValue := by linarith [hs.le_max]
  have hnew : item.editThresholdParameters.min < item.editThresholdParameters.max := by linarith
  obtain ⟨t, u, v, ht, hu, hv⟩ := uikit.setUp_eq_some hold hnew hstep
  simp only [setupStepper, hitem, ht, hu, hv, Option.bind_eq_bind, Option.bind_some,
    Option.pure_def]
  exact ⟨_, rfl⟩

/-- A set-up sets the text and the stepper. -/
theorem setUp_eq_some {type : ThresholdType} {item : EngineDataItem} {value : ThresholdItem}
    (h : s.step uikit (.setUp type item value) = some t) :
    ∃ inputField stepper,
      (EditThresholdViewModel.ofItem type value item.editThresholdParameters).inputText =
        some inputField ∧
      s.setupStepper uikit (.ofItem type value item.editThresholdParameters) = some stepper ∧
      t = { s with
        typeLabel := some type.rawValue.capitalize
        toggleIsOn := value.enabled
        inputField
        stepper
        viewModel := some (.ofItem type value item.editThresholdParameters) } := by
  obtain ⟨inputField, htext, h⟩ := Option.bind_eq_some_iff.1 h
  obtain ⟨stepper, hstepper, h⟩ := Option.bind_eq_some_iff.1 h
  exact ⟨inputField, stepper, htext, hstepper, (Option.some.inj h).symm⟩

theorem isSome_inputText_iff {viewModel : EditThresholdViewModel} :
    viewModel.inputText.isSome = true ↔ (viewModel.editParameters.usesIntegers = true →
      (Swift.int viewModel.currentValue).isSome = true) := by
  unfold EditThresholdViewModel.inputText
  split_ifs with hint
  · simp [hint]
  · simp [hint]

theorem updateCurrentValue_eq_some {value : ℚ} (h : s.updateCurrentValue value = some t) :
    (s.viewModel = none ∧ t = s) ∨ ∃ viewModel inputField, s.viewModel = some viewModel ∧
      (viewModel.updateCurrentValue value).inputText = some inputField ∧
      t = { s with inputField, viewModel := some (viewModel.updateCurrentValue value) } := by
  unfold updateCurrentValue at h
  cases hviewModel : s.viewModel with
  | none =>
    rw [hviewModel] at h
    exact .inl ⟨rfl, (Option.some.inj h).symm⟩
  | some viewModel =>
    rw [hviewModel] at h
    obtain ⟨inputField, htext, h⟩ := Option.bind_eq_some_iff.1 h
    exact .inr ⟨viewModel, inputField, rfl, htext, (Option.some.inj h).symm⟩

/-- A value that `Int` holds is spelled. -/
theorem exists_updateCurrentValue {value : ℚ} (h : (Swift.int value).isSome = true) :
    ∃ t, s.updateCurrentValue value = some t := by
  unfold updateCurrentValue
  cases s.viewModel with
  | none => exact ⟨s, rfl⟩
  | some viewModel =>
    have hspelled : (viewModel.updateCurrentValue value).inputText.isSome = true :=
      isSome_inputText_iff.2 fun _ => h
    obtain ⟨inputField, htext⟩ := Option.isSome_iff_exists.1 hspelled
    simp only [htext, Option.bind_eq_bind, Option.bind_some, Option.pure_def]
    exact ⟨_, rfl⟩

/-- **A tap on the stepper** changes its value, and sends the value where it is another one. -/
theorem stepperTapped_cases {up : Bool} (h : s.stepperTapped uikit up = some t) :
    ((uikit.tapped s.stepper up).value = s.stepper.value ∧
      t = { s with stepper := uikit.tapped s.stepper up }) ∨
    (uikit.tapped s.stepper up).value ≠ s.stepper.value ∧
      { s with stepper := uikit.tapped s.stepper up }.updateCurrentValue
        (uikit.tapped s.stepper up).value = some t := by
  simp only [stepperTapped] at h
  split_ifs at h with hsame
  · exact .inl ⟨hsame, (Option.some.inj h).symm⟩
  · exact .inr ⟨hsame, h⟩

theorem stepper_stepperTapped {up : Bool} (h : s.stepperTapped uikit up = some t) :
    t.stepper = uikit.tapped s.stepper up := by
  rcases stepperTapped_cases h with ⟨-, rfl⟩ | ⟨-, h⟩
  · rfl
  · rcases updateCurrentValue_eq_some h with ⟨-, rfl⟩ | ⟨viewModel, inputField, -, -, rfl⟩ <;> rfl

theorem exists_stepperTapped (hs : Ready s.stepper) (up : Bool) :
    ∃ t, s.stepperTapped uikit up = some t := by
  obtain ⟨value, htapped, hmin, hmax⟩ := uikit.tapped_eq hs.min_le_max up
  have hint : (Swift.int (uikit.tapped s.stepper up).value).isSome = true := by
    rw [htapped]
    exact Swift.isSome_int (by linarith [hs.le_min]) (by linarith [hs.max_le])
  simp only [stepperTapped]
  split_ifs
  · exact ⟨_, rfl⟩
  · exact exists_updateCurrentValue hint

/-- `Int` holds the value that the view is set up with, where its item is edited in integers. -/
def Event.Fits : Event → Prop
  | .setUp _ item value => item.editThresholdParameters.usesIntegers = true →
    (Swift.int value.value).isSome = true
  | _ => True

/-- An event goes through, unless it is a set-up with a value that `Int` does not hold. -/
theorem exists_step_iff (hs : Ready s.stepper) :
    (∃ t, s.step uikit e = some t) ↔ e.Fits := by
  cases e with
  | setUp type item value =>
    have hspelled : (EditThresholdViewModel.ofItem type value
        item.editThresholdParameters).inputText.isSome = true ↔
          Event.Fits (.setUp type item value) := isSome_inputText_iff
    rw [← hspelled]
    refine ⟨fun ⟨t, h⟩ => ?_, fun h => ?_⟩
    · obtain ⟨inputField, stepper, htext, -⟩ := setUp_eq_some h
      exact Option.isSome_iff_exists.2 ⟨inputField, htext⟩
    · obtain ⟨inputField, htext⟩ := Option.isSome_iff_exists.1 h
      obtain ⟨stepper, hstepper⟩ : ∃ stepper, s.setupStepper uikit
          (.ofItem type value item.editThresholdParameters) = some stepper :=
        exists_setupStepper hs rfl
      simp only [step, setViewModel, htext, hstepper, Option.bind_eq_bind, Option.bind_some,
        Option.pure_def]
      exact ⟨_, rfl⟩
  | stepperTapped up => exact iff_of_true (exists_stepperTapped hs up) trivial
  | toggleTapped | segmentTapped index | typed text => exact iff_of_true ⟨_, rfl⟩ trivial

theorem ready_step (hs : Ready s.stepper) (h : s.step uikit e = some t) : Ready t.stepper := by
  cases e with
  | setUp type item value =>
    obtain ⟨inputField, stepper, -, hstepper, rfl⟩ := setUp_eq_some h
    have hvalue := setupStepper_eq_some rfl hstepper
    rw [uikit.setValue_eq] at hvalue
    have hmin : stepper.minimumValue = item.editThresholdParameters.min :=
      congrArg UIStepper.minimumValue hvalue
    have hmax : stepper.maximumValue = item.editThresholdParameters.max :=
      congrArg UIStepper.maximumValue hvalue
    exact (ready_stepperAt item stepper.value).congr hmin hmax
  | stepperTapped up =>
    obtain ⟨value, htapped, -, -⟩ := uikit.tapped_eq hs.min_le_max up
    rw [stepper_stepperTapped h, htapped]
    exact hs.congr rfl rfl
  | toggleTapped =>
    obtain rfl := Option.some.inj h
    exact hs
  | segmentTapped index =>
    obtain rfl := Option.some.inj h
    unfold segmentTapped
    split_ifs <;> exact hs
  | typed text =>
    obtain rfl := Option.some.inj h
    exact hs

theorem ready_run (h : Run (ofPartial (step uikit)) {} events t) : Ready t.stepper :=
  h.invariant (I := fun s => Ready s.stepper) ready_default fun _ _ _ hs ht => ready_step hs ht

/-- The view with another text in its field. -/
def withText (s : EditThresholdView) (text : String) : EditThresholdView :=
  { s with inputField := text }

def Event.isTyped : Event → Bool
  | .typed _ => true
  | _ => false

theorem updateCurrentValue_withText {value : ℚ} (h : s.updateCurrentValue value = some t)
    (text : String) : ∃ text',
      (s.withText text).updateCurrentValue value = some (t.withText text') := by
  rcases updateCurrentValue_eq_some h with ⟨hnone, rfl⟩ |
    ⟨viewModel, inputField, hviewModel, htext, rfl⟩
  · refine ⟨text, ?_⟩
    unfold updateCurrentValue
    rw [show (t.withText text).viewModel = none from hnone]
  · refine ⟨inputField, ?_⟩
    unfold updateCurrentValue
    rw [show (s.withText text).viewModel = some viewModel from hviewModel]
    simp only [htext, Option.bind_eq_bind, Option.bind_some, Option.pure_def]
    rfl

/-- No event reads the text. -/
theorem step_withText (h : s.step uikit e = some t) (text : String) :
    ∃ text', (s.withText text).step uikit e = some (t.withText text') := by
  cases e with
  | setUp type item value =>
    obtain ⟨inputField, stepper, htext, hstepper, rfl⟩ := setUp_eq_some h
    have hsame : (s.withText text).setupStepper uikit
        (.ofItem type value item.editThresholdParameters) = some stepper := hstepper
    refine ⟨inputField, ?_⟩
    simp only [step, setViewModel, htext, hsame, Option.bind_eq_bind, Option.bind_some,
      Option.pure_def]
    rfl
  | stepperTapped up =>
    rcases stepperTapped_cases h with ⟨hsame, rfl⟩ | ⟨hne, h⟩
    · exact ⟨text, if_pos hsame⟩
    · obtain ⟨text', htext⟩ := updateCurrentValue_withText h text
      exact ⟨text', (if_neg hne).trans htext⟩
  | toggleTapped =>
    obtain rfl := Option.some.inj h
    exact ⟨text, rfl⟩
  | segmentTapped index =>
    obtain rfl := Option.some.inj h
    refine ⟨text, congrArg some ?_⟩
    by_cases hsame : (index : ℕ) = s.selectedSegmentIndex
    · have hstay : ∀ w : EditThresholdView, w.selectedSegmentIndex = s.selectedSegmentIndex →
          w.segmentTapped index = w := fun w hw => if_pos (by rw [hw, hsame])
      rw [hstay s rfl, hstay (s.withText text) rfl]
    · have hsend : ∀ w : EditThresholdView, w.selectedSegmentIndex = s.selectedSegmentIndex →
          w.segmentTapped index = { w with
            selectedSegmentIndex := index
            viewModel := w.viewModel.map (·.toggleDirection ((index : ℕ) == 0)) } :=
        fun w hw => if_neg (by rwa [hw])
      rw [hsend s rfl, hsend (s.withText text) rfl]
      rfl
  | typed typed =>
    obtain rfl := Option.some.inj h
    exact ⟨typed, rfl⟩

theorem run_untyped (h : Run (ofPartial (step uikit)) {} events t) : ∃ text,
    Run (ofPartial (step uikit)) {} (events.filter fun e => !e.isTyped) (t.withText text) := by
  induction h with
  | nil => exact ⟨"", .nil⟩
  | @snoc events e s t _ hs ih =>
    obtain ⟨text, hrun⟩ := ih
    rw [List.filter_append]
    cases he : e.isTyped with
    | true =>
      rw [List.filter_cons_of_neg (by simp [he]), List.filter_nil, List.append_nil]
      cases e with
      | typed typed =>
        obtain rfl := Option.some.inj hs
        exact ⟨text, hrun⟩
      | setUp type item value | stepperTapped up | toggleTapped | segmentTapped index => cases he
    | false =>
      rw [List.filter_cons_of_pos (by simp [he]), List.filter_nil]
      obtain ⟨text', hstep⟩ := step_withText hs text
      exact ⟨text', hrun.snoc hstep⟩

theorem exists_run_iff :
    (∃ t, Run (ofPartial (step uikit)) {} events t) ↔ ∀ e ∈ events, e.Fits := by
  induction events using List.reverseRecOn with
  | nil => exact iff_of_true ⟨{}, .nil⟩ fun _ he => (by cases he)
  | append_singleton events e ih =>
    rw [List.forall_mem_append, List.forall_mem_singleton, ← ih]
    constructor
    · rintro ⟨t, ht⟩
      obtain ⟨s, hs, hstep⟩ := ht.snoc_inv
      exact ⟨⟨s, hs⟩, (exists_step_iff (ready_run hs)).1 ⟨t, hstep⟩⟩
    · rintro ⟨⟨s, hs⟩, hfits⟩
      obtain ⟨t, ht⟩ := (exists_step_iff (ready_run hs)).2 hfits
      exact ⟨t, hs.snoc ht⟩

/-- **What stops an editor, and what it does with typed texts.** A sequence of set-ups, taps and
typed texts goes through exactly where no item that is edited in integers is set up with a value
that `Int` does not hold; the stepper raises no exception. The typed texts change nothing but the
text in the field. -/
theorem editor_runs_iff (uikit : UIKit) (events : List Event) :
    ((∃ t, Run (ofPartial (step uikit)) {} events t) ↔ ∀ e ∈ events, e.Fits) ∧
      ∀ t, Run (ofPartial (step uikit)) {} events t → ∃ text,
        Run (ofPartial (step uikit)) {} (events.filter fun e => !e.isTyped) (t.withText text) :=
  ⟨exists_run_iff, fun _ h => run_untyped h⟩

/-! ## The edits after a set-up -/

def Event.isSetUp : Event → Bool
  | .setUp _ _ _ => true
  | _ => false

def Event.isToggle : Event → Bool
  | .toggleTapped => true
  | _ => false

/-- Whether a segment other than the one at `index` is tapped. -/
def Event.leaves (index : ℕ) : Event → Bool
  | .segmentTapped segment => (segment : ℕ) != index
  | _ => false

/-- The values at which the stepper of an item stops. -/
structure Offers (item : EngineDataItem) (value : ℚ) : Prop where
  min_le : item.editThresholdParameters.min ≤ value
  le_max : value ≤ item.editThresholdParameters.max
  steps : ∃ n : ℤ, value = n * item.editThresholdParameters.step

/-- `Int` holds the values at which the stepper of an item stops. -/
theorem fits_of_offers {type : ThresholdType} {item : EngineDataItem} {value : ThresholdItem}
    (h : Offers item value.value) : (Event.setUp type item value).Fits := by
  obtain ⟨hlow, hhigh, -⟩ := parameters_range item
  exact fun _ => Swift.isSome_int (by linarith [h.min_le]) (by linarith [h.le_max])

/-- Where an item is edited in integers, its bounds are a whole number of steps from 0. -/
theorem parameters_steps {item : EngineDataItem}
    (hint : item.editThresholdParameters.usesIntegers = true) :
    (∃ n : ℤ, item.editThresholdParameters.min = n * item.editThresholdParameters.step) ∧
      (∃ n : ℤ, item.editThresholdParameters.max = n * item.editThresholdParameters.step) ∧
      ∃ n : ℤ, item.editThresholdParameters.step = n := by
  have hsteps : ∀ m n step min max : ℤ, min = m * step → max = n * step →
      (∃ k : ℤ, (EditThresholdParameters.ofInt min max step).min =
        k * (EditThresholdParameters.ofInt min max step).step) ∧
      (∃ k : ℤ, (EditThresholdParameters.ofInt min max step).max =
        k * (EditThresholdParameters.ofInt min max step).step) ∧
      ∃ k : ℤ, (EditThresholdParameters.ofInt min max step).step = k := by
    intro m n step min max hmin hmax
    refine ⟨⟨m, ?_⟩, ⟨n, ?_⟩, step, rfl⟩
    · simp [EditThresholdParameters.ofInt, hmin]
    · simp [EditThresholdParameters.ofInt, hmax]
  cases item with
  | rpm => exact hsteps 0 3000 10 _ _ rfl rfl
  | boost => exact hsteps (-500) 500 10 _ _ rfl rfl
  | batteryVoltage => exact absurd hint Bool.false_ne_true
  | _ => exact hsteps _ _ 1 _ _ (mul_one _).symm (mul_one _).symm

/-- A value at which the stepper of an item stops is set as it is. -/
theorem setValue_stepperAt {item : EngineDataItem} {value : ℚ} (hvalue : Offers item value)
    (old : ℚ) : uikit.setValue (stepperAt item old) value = stepperAt item value :=
  uikit.setValue_of_mem hvalue.min_le hvalue.le_max

/-- Where an item is edited in integers, its steps are sums of integers that are exact. -/
theorem exists_int_of_offers {item : EngineDataItem} {value : ℚ}
    (hint : item.editThresholdParameters.usesIntegers = true) (hvalue : Offers item value) :
    ∃ n k : ℤ, value = n ∧ item.editThresholdParameters.step = k ∧ |n| ≤ 2 ^ 52 ∧ |k| ≤ 2 ^ 52 := by
  obtain ⟨-, -, k, hk⟩ := parameters_steps hint
  obtain ⟨m, hm⟩ := hvalue.steps
  obtain ⟨hlow, hhigh, hstep⟩ := parameters_range item
  obtain ⟨-, -, hpos⟩ := parameters_bounds item
  have hn : value = ((m * k : ℤ) : ℚ) := by rw [hm, hk, Int.cast_mul]
  refine ⟨m * k, k, hn, hk, abs_le.2 ⟨?_, ?_⟩, abs_le.2 ⟨?_, ?_⟩⟩
  · have hle := hvalue.min_le
    rw [hn] at hle
    have hlow' : (-2 ^ 15 : ℚ) ≤ ((m * k : ℤ) : ℚ) := hlow.trans hle
    have hcast : (-2 ^ 15 : ℤ) ≤ m * k := by exact_mod_cast hlow'
    linarith
  · have hle := hvalue.le_max
    rw [hn] at hle
    have hhigh' : ((m * k : ℤ) : ℚ) ≤ 2 ^ 15 := hle.trans hhigh
    have hcast : m * k ≤ (2 ^ 15 : ℤ) := by exact_mod_cast hhigh'
    linarith
  · rw [hk] at hpos
    have hcast : 0 < k := by exact_mod_cast hpos
    linarith
  · rw [hk] at hstep
    have hcast : k ≤ (2 ^ 15 : ℤ) := by exact_mod_cast hstep
    linarith

/-- A tap takes the stepper from one of its values to one. -/
theorem tapped_stepperAt {item : EngineDataItem} {value : ℚ}
    (hint : item.editThresholdParameters.usesIntegers = true) (hvalue : Offers item value)
    (up : Bool) :
    ∃ value', Offers item value' ∧ uikit.tapped (stepperAt item value) up =
      stepperAt item value' := by
  obtain ⟨hmin, hmax, -⟩ := parameters_steps hint
  have hle := hvalue.min_le.trans hvalue.le_max
  -- a step away from a value, cut off at the bounds
  have hcut : ∀ next : ℚ, (∃ n : ℤ, next = n * item.editThresholdParameters.step) →
      Offers item (max item.editThresholdParameters.min
        (min item.editThresholdParameters.max next)) := by
    intro next hnext
    refine ⟨le_max_left _ _, max_le hle (min_le_left _ _), ?_⟩
    rcases max_choice item.editThresholdParameters.min
      (min item.editThresholdParameters.max next) with h | h
    · rwa [h]
    · rw [h]
      rcases min_choice item.editThresholdParameters.max next with h | h
      · rwa [h]
      · rwa [h]
  obtain ⟨n, k, hn, hk, hn_le, hk_le⟩ := exists_int_of_offers hint hvalue
  have htapped := uikit.tapped_int (s := stepperAt item value) up hn hk hn_le hk_le
  rw [uikit.setValue_eq] at htapped
  refine ⟨_, hcut (if up then (n : ℚ) + k else n - k) ?_, htapped⟩
  obtain ⟨m, hm⟩ := hvalue.steps
  rw [← hn, ← hk, hm]
  cases up with
  | true =>
    refine ⟨m + 1, ?_⟩
    rw [if_pos rfl]
    push_cast
    ring
  | false =>
    refine ⟨m - 1, ?_⟩
    rw [if_neg Bool.false_ne_true]
    push_cast
    ring

/-- The direction is the one that the segmented control shows, but only once a segment other than
the one at `index` was tapped; until then that one is shown. -/
def Directed (index : ℕ) (value : ThresholdItem) (post : List Event) (shown : ℕ)
    (isGreaterThan : Bool) : Prop :=
  if post.any (Event.leaves index) then isGreaterThan = (shown == 0)
  else shown = index ∧ isGreaterThan = value.greaterThan

theorem Directed.snoc {index shown : ℕ} {value : ThresholdItem} {isGreaterThan : Bool}
    (h : Directed index value post shown isGreaterThan) (he : e.leaves index = false) :
    Directed index value (post ++ [e]) shown isGreaterThan := by
  have hany : (post ++ [e]).any (Event.leaves index) = post.any (Event.leaves index) := by
    rw [List.any_append, List.any_cons, List.any_nil, he, Bool.or_false, Bool.or_false]
  rw [Directed, hany]
  exact h

theorem Directed.any_of_ne {index shown : ℕ} {value : ThresholdItem} {isGreaterThan : Bool}
    (h : Directed index value post shown isGreaterThan) (hne : shown ≠ index) :
    post.any (Event.leaves index) = true ∧ isGreaterThan = (shown == 0) := by
  unfold Directed at h
  split_ifs at h with hany
  · exact ⟨hany, h⟩
  · exact absurd h.1 hne

/-- A tap on a segment, which sends a direction where it selects another one than is shown. -/
theorem Directed.tapped {index shown : ℕ} {value : ThresholdItem} {isGreaterThan : Bool}
    (h : Directed index value post shown isGreaterThan) (segment : Fin 2) :
    Directed index value (post ++ [.segmentTapped segment]) segment
      (if (segment : ℕ) = shown then isGreaterThan else (segment : ℕ) == 0) := by
  by_cases hleaves : (segment : ℕ) = index
  · by_cases hshown : shown = index
    · have he : (Event.segmentTapped segment).leaves index = false := by
        simp [Event.leaves, hleaves]
      rw [if_pos (hleaves.trans hshown.symm), hleaves]
      obtain rfl := hshown
      exact h.snoc he
    · have hany : (post ++ [Event.segmentTapped segment]).any (Event.leaves index) = true := by
        rw [List.any_append, (h.any_of_ne hshown).1, Bool.true_or]
      rw [Directed, if_pos hany, if_neg (hleaves ▸ Ne.symm hshown)]
  · have hany : (post ++ [Event.segmentTapped segment]).any (Event.leaves index) = true := by
      rw [List.any_append, List.any_cons]
      simp [Event.leaves, hleaves]
    rw [Directed, if_pos hany]
    split_ifs with hsame
    · rw [hsame]
      exact (h.any_of_ne (hsame ▸ hleaves)).2
    · rfl

/-- What the gestures `post` after a set-up leave in the view and in its view model. -/
structure Edited (u : EditThresholdView) (type : ThresholdType) (item : EngineDataItem)
    (value : ThresholdItem) (post : List Event) (t : EditThresholdView)
    (viewModel : EditThresholdViewModel) : Prop where
  viewModel_eq : t.viewModel = some viewModel
  type_eq : viewModel.type = type
  parameters_eq : viewModel.editParameters = item.editThresholdParameters
  stepper : t.stepper = stepperAt item viewModel.currentValue
  offers : Offers item viewModel.currentValue
  text : (∀ e ∈ post, e.isTyped = false) → viewModel.inputText = some t.inputField
  toggle : t.toggleIsOn = viewModel.currentEnabled
  enabled : viewModel.currentEnabled = (value.enabled ^^ (post.countP Event.isToggle).bodd)
  direction : Directed u.selectedSegmentIndex value post t.selectedSegmentIndex
    viewModel.currentIsGreaterThan

variable {type : ThresholdType} {item : EngineDataItem} {value : ThresholdItem}
  {viewModel : EditThresholdViewModel}

theorem edited_setUp (hset : s.step uikit (.setUp type item value) = some u)
    (hvalue : Offers item value.value) :
    Edited u type item value [] u (.ofItem type value item.editThresholdParameters) := by
  obtain ⟨inputField, stepper, htext, hstepper, rfl⟩ := setUp_eq_some hset
  refine ⟨rfl, rfl, rfl, ?_, hvalue, fun _ => htext, rfl, ?_, rfl, rfl⟩
  · exact (setupStepper_eq_some rfl hstepper).trans (setValue_stepperAt hvalue _)
  · simp [EditThresholdViewModel.ofItem]

theorem edited_step (hint : item.editThresholdParameters.usesIntegers = true)
    (h : Edited u type item value post t viewModel) (he : e.isSetUp = false)
    (hs : t.step uikit e = some v) :
    ∃ viewModel, Edited u type item value (post ++ [e]) v viewModel := by
  have hcount : (post ++ [e]).countP Event.isToggle = post.countP Event.isToggle +
      [e].countP Event.isToggle := List.countP_append
  have htext : (∀ e' ∈ post ++ [e], e'.isTyped = false) →
      viewModel.inputText = some t.inputField :=
    fun hall => h.text (List.forall_mem_append.1 hall).1
  cases e with
  | setUp type item value => cases he
  | stepperTapped up =>
    obtain ⟨next, hnext, htapped⟩ : ∃ value', Offers item value' ∧
        uikit.tapped (stepperAt item viewModel.currentValue) up = stepperAt item value' :=
      tapped_stepperAt hint h.offers up
    rw [← h.stepper] at htapped
    rcases stepperTapped_cases hs with ⟨hsame, rfl⟩ | ⟨-, hs⟩
    · rw [htapped, h.stepper] at hsame
      have hstay : next = viewModel.currentValue := hsame
      refine ⟨viewModel, h.viewModel_eq, h.type_eq, h.parameters_eq, ?_, h.offers, htext,
        h.toggle, by rw [hcount]; exact h.enabled, h.direction.snoc rfl⟩
      rw [htapped, hstay]
    · rw [htapped] at hs
      rcases updateCurrentValue_eq_some hs with ⟨hnone, -⟩ |
        ⟨viewModel', inputField, hviewModel, hspelled, rfl⟩
      · cases h.viewModel_eq.symm.trans hnone
      · obtain rfl := Option.some.inj (h.viewModel_eq.symm.trans hviewModel)
        exact ⟨viewModel.updateCurrentValue next, rfl, h.type_eq, h.parameters_eq, rfl, hnext,
          fun _ => hspelled, h.toggle, by rw [hcount]; exact h.enabled, h.direction.snoc rfl⟩
  | toggleTapped =>
    obtain rfl := Option.some.inj hs
    refine ⟨viewModel.toggleEnabled (!t.toggleIsOn), ?_, h.type_eq, h.parameters_eq, h.stepper,
      h.offers, htext, rfl, ?_, h.direction.snoc rfl⟩
    · rw [toggleTapped, h.viewModel_eq]
      rfl
    · show (!t.toggleIsOn) = (value.enabled ^^ _)
      have hodd : ((post ++ [Event.toggleTapped]).countP Event.isToggle).bodd =
          !(post.countP Event.isToggle).bodd := by
        rw [hcount]
        exact Nat.bodd_succ _
      rw [hodd, h.toggle, h.enabled, Bool.xor_not]
  | segmentTapped index =>
    obtain rfl := Option.some.inj hs
    have henabled : viewModel.currentEnabled =
        (value.enabled ^^ ((post ++ [Event.segmentTapped index]).countP Event.isToggle).bodd) := by
      rw [hcount]
      exact h.enabled
    have hdirection := h.direction.tapped index
    by_cases hsame : (index : ℕ) = t.selectedSegmentIndex
    · have hstay : t.segmentTapped index = t := if_pos hsame
      rw [if_pos hsame, hsame] at hdirection
      rw [hstay]
      exact ⟨viewModel, h.viewModel_eq, h.type_eq, h.parameters_eq, h.stepper, h.offers, htext,
        h.toggle, henabled, hdirection⟩
    · have hsend : t.segmentTapped index = { t with
          selectedSegmentIndex := index
          viewModel := t.viewModel.map (·.toggleDirection ((index : ℕ) == 0)) } := if_neg hsame
      rw [if_neg hsame] at hdirection
      rw [hsend, h.viewModel_eq]
      exact ⟨viewModel.toggleDirection ((index : ℕ) == 0), rfl, h.type_eq, h.parameters_eq,
        h.stepper, h.offers, htext, h.toggle, henabled, hdirection⟩
  | typed text =>
    obtain rfl := Option.some.inj hs
    refine ⟨viewModel, h.viewModel_eq, h.type_eq, h.parameters_eq, h.stepper, h.offers, ?_,
      h.toggle, by rw [hcount]; exact h.enabled, h.direction.snoc rfl⟩
    intro hall
    exact absurd (hall (.typed text) (by simp)) (by simp [Event.isTyped])

/-- A view without a view model has none until it is set up. -/
theorem viewModel_of_none (hs : s.viewModel = none) (he : e.isSetUp = false)
    (h : s.step uikit e = some t) : t.viewModel = none := by
  cases e with
  | setUp type item value => cases he
  | stepperTapped up =>
    rcases stepperTapped_cases h with ⟨-, rfl⟩ | ⟨-, h⟩
    · exact hs
    · rcases updateCurrentValue_eq_some h with ⟨-, rfl⟩ | ⟨viewModel, inputField, hsome, -⟩
      · exact hs
      · cases hs.symm.trans hsome
  | toggleTapped =>
    obtain rfl := Option.some.inj h
    rw [toggleTapped, hs]
    rfl
  | segmentTapped index =>
    obtain rfl := Option.some.inj h
    unfold segmentTapped
    split_ifs
    · exact hs
    · rw [hs]
      rfl
  | typed text =>
    obtain rfl := Option.some.inj h
    exact hs

/-- **What an editor holds.** Whatever happened before it was set up for a threshold that its
stepper stops at, and whatever is tapped and typed after: the stepper, within the bounds and on the
steps of the item, and the switch show what the view model holds, and so does the text until the
user types. The direction that the segmented control shows is the one that the view model holds
exactly when it was so at first, or another segment was tapped since. -/
theorem editor_edits (hint : item.editThresholdParameters.usesIntegers = true)
    (hvalue : Offers item value.value) (hset : s.step uikit (.setUp type item value) = some u)
    (hpost : Run (ofPartial (step uikit)) u post t) (hnone : ∀ e ∈ post, e.isSetUp = false) :
    ∃ viewModel, Edited u type item value post t viewModel ∧
      (viewModel.currentIsGreaterThan = (t.selectedSegmentIndex == 0) ↔
        value.greaterThan = (u.selectedSegmentIndex == 0) ∨
          ∃ index : Fin 2, .segmentTapped index ∈ post ∧ (index : ℕ) ≠ u.selectedSegmentIndex) := by
  have hedited : ∃ viewModel, Edited u type item value post t viewModel := by
    induction hpost with
    | nil => exact ⟨_, edited_setUp hset hvalue⟩
    | snoc _ hs ih =>
      rw [List.forall_mem_append, List.forall_mem_singleton] at hnone
      obtain ⟨viewModel, h⟩ := ih hnone.1
      exact edited_step hint h hnone.2 hs
  obtain ⟨viewModel, h⟩ := hedited
  have hleaves : post.any (Event.leaves u.selectedSegmentIndex) = true ↔
      ∃ index : Fin 2, .segmentTapped index ∈ post ∧ (index : ℕ) ≠ u.selectedSegmentIndex := by
    rw [List.any_eq_true]
    constructor
    · rintro ⟨e, he, hleaves⟩
      cases e with
      | segmentTapped index => exact ⟨index, he, by simpa [Event.leaves] using hleaves⟩
      | setUp type item value | stepperTapped up | toggleTapped | typed text => cases hleaves
    · rintro ⟨index, he, hne⟩
      exact ⟨_, he, by simpa [Event.leaves] using hne⟩
  refine ⟨viewModel, h, ?_⟩
  rw [← hleaves]
  have hdirection := h.direction
  unfold Directed at hdirection
  split_ifs at hdirection with hany
  · exact iff_of_true hdirection (.inr hany)
  · rw [hdirection.1, hdirection.2]
    simp [hany]

/-- The warning of the rpm, as one below 8000, is raised by a step. -/
theorem editor_edits_rpm :
    ∃ u t viewModel, Run (ofPartial (step .clamping)) {} [.setUp .warning .rpm
        { enabled := true, greaterThan := false, value := 8000 }] u ∧
      Run (ofPartial (step .clamping)) u [.stepperTapped true] t ∧
      Edited u .warning .rpm { enabled := true, greaterThan := false, value := 8000 }
        [.stepperTapped true] t viewModel ∧
      (viewModel.currentIsGreaterThan = (t.selectedSegmentIndex == 0) ↔
        false = (u.selectedSegmentIndex == 0) ∨ ∃ index : Fin 2,
          Event.segmentTapped index ∈ [Event.stepperTapped true] ∧
            (index : ℕ) ≠ u.selectedSegmentIndex) := by
  obtain ⟨u, hset⟩ : ∃ u, step .clamping {} (.setUp .warning .rpm
      { enabled := true, greaterThan := false, value := 8000 }) = some u :=
    (exists_step_iff ready_default).2 fun _ => Swift.isSome_int (by norm_num) (by norm_num)
  obtain ⟨t, htap⟩ : ∃ t, u.step .clamping (.stepperTapped true) = some t :=
    (exists_step_iff (ready_step ready_default hset)).2 trivial
  have hrun : Run (ofPartial (step .clamping)) u [.stepperTapped true] t := .single htap
  obtain ⟨viewModel, h⟩ := editor_edits rfl
    ⟨by norm_num [EngineDataItem.editThresholdParameters, EditThresholdParameters.ofInt],
      by norm_num [EngineDataItem.editThresholdParameters, EditThresholdParameters.ofInt],
      800, by norm_num [EngineDataItem.editThresholdParameters, EditThresholdParameters.ofInt]⟩
    hset hrun (by simp [Event.isSetUp])
  exact ⟨u, t, viewModel, .single hset, hrun, h⟩

end

end EditThresholdView

/-! ## The page of the two editors -/

structure EditThresholdViewControllerViewModel where
  dataItem : EngineDataItem
  editParameters : EditThresholdParameters
  currentValue : Threshold

structure EditThresholdViewController where
  warningEditor : EditThresholdView := {}
  criticalEditor : EditThresholdView := {}
  viewModel : Option EditThresholdViewControllerViewModel := none

namespace EditThresholdViewController

variable (uikit : UIKit) (self : EditThresholdViewController)

/-- `viewWillAppear`. -/
def viewWillAppear : Option EditThresholdViewController :=
  match self.viewModel with
  | none => some self
  | some viewModel => do
    let warningEditor ← self.warningEditor.setViewModel uikit
      (.ofItem .warning viewModel.currentValue.warning viewModel.editParameters)
    let criticalEditor ← self.criticalEditor.setViewModel uikit
      (.ofItem .critical viewModel.currentValue.critical viewModel.editParameters)
    return { self with warningEditor, criticalEditor }

/-- An event of the editor of one of the two items. -/
def edit (type : ThresholdType) (event : EditThresholdView.Event) :
    Option EditThresholdViewController :=
  match type with
  | .warning => (self.warningEditor.step uikit event).map fun warningEditor =>
    { self with warningEditor }
  | .critical => (self.criticalEditor.step uikit event).map fun criticalEditor =>
    { self with criticalEditor }

end EditThresholdViewController

end Rx7
