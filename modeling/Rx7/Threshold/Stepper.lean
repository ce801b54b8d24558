import Mathlib.Algebra.Order.Ring.Rat
import Mathlib.Data.Rat.Defs
import Mathlib.Tactic.Linarith
import Mathlib.Tactic.NormNum

/-!
# Steppers

A `UIStepper` keeps a value within bounds, and changes it by a step when one of its two buttons is
tapped. What it does is UIKit's, and is known from UIKit's documentation: `UIKit` has its
operations, over which the program is stated, and as fields what is documented of them. Where the
step is not an integer, a tap sets some value in the bounds; which one it is depends on the
rounding of `Double`s.

`UIKit.clamping` is one that does what is documented.
-/

namespace Rx7

structure UIStepper where
  minimumValue : ℚ := 0
  maximumValue : ℚ := 100
  stepValue : ℚ := 1
  value : ℚ := 0

/-- What UIKit does to a stepper. An exception leaves none. -/
structure UIKit where
  setMinimumValue : UIStepper → ℚ → Option UIStepper
  setMaximumValue : UIStepper → ℚ → Option UIStepper
  setStepValue : UIStepper → ℚ → Option UIStepper
  setValue : UIStepper → ℚ → UIStepper
  /-- A button is tapped, that of the plus or that of the minus. -/
  tapped : UIStepper → Bool → UIStepper
  /-- The minimum has to be less than the maximum. -/
  setMinimumValue_isSome_iff (s : UIStepper) (value : ℚ) :
    (setMinimumValue s value).isSome = true ↔ value < s.maximumValue
  setMinimumValue_eq_some {s t : UIStepper} {value : ℚ} (h : setMinimumValue s value = some t) :
    t.minimumValue = value ∧ t.maximumValue = s.maximumValue ∧ t.stepValue = s.stepValue
  /-- The maximum has to be greater than the minimum. -/
  setMaximumValue_isSome_iff (s : UIStepper) (value : ℚ) :
    (setMaximumValue s value).isSome = true ↔ s.minimumValue < value
  setMaximumValue_eq_some {s t : UIStepper} {value : ℚ} (h : setMaximumValue s value = some t) :
    t.maximumValue = value ∧ t.minimumValue = s.minimumValue ∧ t.stepValue = s.stepValue
  /-- The step has to be greater than 0. -/
  setStepValue_isSome_iff (s : UIStepper) (value : ℚ) :
    (setStepValue s value).isSome = true ↔ 0 < value
  setStepValue_eq_some {s t : UIStepper} {value : ℚ} (h : setStepValue s value = some t) :
    t.stepValue = value ∧ t.minimumValue = s.minimumValue ∧ t.maximumValue = s.maximumValue
  /-- A value is clamped to the minimum at its lower and to the maximum at its upper extreme. -/
  setValue_eq (s : UIStepper) (value : ℚ) : setValue s value =
    { s with value := max s.minimumValue (min s.maximumValue value) }
  /-- A tap sets a value. -/
  tapped_sets (s : UIStepper) (up : Bool) : ∃ value, tapped s up = setValue s value
  /-- A tap changes the value by the step; the sums of these integers are exact. -/
  tapped_int {s : UIStepper} {value step : ℤ} (up : Bool) (hvalue : s.value = value)
    (hstep : s.stepValue = step) (hvalue_le : |value| ≤ 2 ^ 52) (hstep_le : |step| ≤ 2 ^ 52) :
    tapped s up = setValue s (if up then value + step else value - step)

namespace UIKit

/-- The steppers that do what is documented and nothing else, with exact sums. -/
def clamping : UIKit where
  setMinimumValue s value := if value < s.maximumValue then
    some { s with minimumValue := value } else none
  setMaximumValue s value := if s.minimumValue < value then
    some { s with maximumValue := value } else none
  setStepValue s value := if 0 < value then some { s with stepValue := value } else none
  setValue s value := { s with value := max s.minimumValue (min s.maximumValue value) }
  tapped s up := { s with value := max s.minimumValue (min s.maximumValue
    (if up then s.value + s.stepValue else s.value - s.stepValue)) }
  setMinimumValue_isSome_iff s value := by simp
  setMinimumValue_eq_some h := by
    split_ifs at h
    obtain rfl := Option.some.inj h
    exact ⟨rfl, rfl, rfl⟩
  setMaximumValue_isSome_iff s value := by simp
  setMaximumValue_eq_some h := by
    split_ifs at h
    obtain rfl := Option.some.inj h
    exact ⟨rfl, rfl, rfl⟩
  setStepValue_isSome_iff s value := by simp
  setStepValue_eq_some h := by
    split_ifs at h
    obtain rfl := Option.some.inj h
    exact ⟨rfl, rfl, rfl⟩
  setValue_eq _ _ := rfl
  tapped_sets _ _ := ⟨_, rfl⟩
  tapped_int up hvalue hstep _ _ := by rw [hvalue, hstep]

variable (uikit : UIKit) {s : UIStepper} {value : ℚ}

theorem value_setValue_mem (h : s.minimumValue ≤ s.maximumValue) :
    s.minimumValue ≤ (uikit.setValue s value).value ∧
      (uikit.setValue s value).value ≤ s.maximumValue := by
  rw [uikit.setValue_eq]
  exact ⟨le_max_left _ _, max_le h (min_le_left _ _)⟩

/-- A value in the bounds is set as it is. -/
theorem setValue_of_mem (hmin : s.minimumValue ≤ value) (hmax : value ≤ s.maximumValue) :
    uikit.setValue s value = { s with value } := by
  rw [uikit.setValue_eq, min_eq_right hmax, max_eq_right hmin]

/-- A tap changes nothing but the value, which stays in the bounds. -/
theorem tapped_eq (h : s.minimumValue ≤ s.maximumValue) (up : Bool) :
    ∃ value, uikit.tapped s up = { s with value } ∧ s.minimumValue ≤ value ∧
      value ≤ s.maximumValue := by
  obtain ⟨value, htapped⟩ := uikit.tapped_sets s up
  obtain ⟨hmin, hmax⟩ : s.minimumValue ≤ (uikit.setValue s value).value ∧
      (uikit.setValue s value).value ≤ s.maximumValue := uikit.value_setValue_mem h
  refine ⟨_, htapped.trans (uikit.setValue_eq s value), ?_⟩
  rw [uikit.setValue_eq] at hmin hmax
  exact ⟨hmin, hmax⟩

/-- Bounds that do not cross those before are set, with a step and a value. -/
theorem setUp_eq_some {min max step : ℚ} (hold : min < s.maximumValue) (hnew : min < max)
    (hstep : 0 < step) : ∃ t u v, uikit.setMinimumValue s min = some t ∧
      uikit.setMaximumValue t max = some u ∧ uikit.setStepValue u step = some v := by
  obtain ⟨t, ht⟩ := Option.isSome_iff_exists.1 ((uikit.setMinimumValue_isSome_iff s min).2 hold)
  obtain ⟨htmin, -, -⟩ := uikit.setMinimumValue_eq_some ht
  obtain ⟨u, hu⟩ := Option.isSome_iff_exists.1
    ((uikit.setMaximumValue_isSome_iff t max).2 (htmin ▸ hnew))
  obtain ⟨v, hv⟩ := Option.isSome_iff_exists.1 ((uikit.setStepValue_isSome_iff u step).2 hstep)
  exact ⟨t, u, v, ht, hu, hv⟩

end UIKit

end Rx7
