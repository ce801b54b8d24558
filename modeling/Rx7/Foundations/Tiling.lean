import Mathlib.Data.Set.Function
import Mathlib.Order.Interval.Set.LinearOrder
import Mathlib.Data.List.Chain

/-!
# Slices that tile a range

Where a record is read off a sequence slice by slice, two sequences give one record exactly when
they agree on every slice. Slices that follow one another without a gap, from a first index
through a list of cuts to the last of them, make up one range (`eqOn_Ico_iff_isChain`).
-/

namespace Rx7.Tiling

open Set

variable {ι α : Type*} [LinearOrder ι] {f g : ι → α} {a b c : ι} {cuts : List ι}

theorem eqOn_Ico_append (hab : a ≤ b) (hbc : b ≤ c) :
    EqOn f g (Ico a c) ↔ EqOn f g (Ico a b) ∧ EqOn f g (Ico b c) := by
  rw [← Ico_union_Ico_eq_Ico hab hbc, eqOn_union]

theorem le_getLast (h : (a :: cuts).IsChain (· ≤ ·)) :
    a ≤ (a :: cuts).getLast (List.cons_ne_nil a cuts) := by
  induction cuts generalizing a with
  | nil => exact le_rfl
  | cons b cuts ih =>
    rw [List.isChain_cons_cons] at h
    rw [List.getLast_cons (List.cons_ne_nil b cuts)]
    exact h.1.trans (ih h.2)

/-- Two functions agree on a range exactly when they agree on the slices that the cuts make. -/
theorem eqOn_Ico_iff_isChain (a c : ι) (cuts : List ι) (h : (a :: cuts).IsChain (· ≤ ·))
    (hc : (a :: cuts).getLast (List.cons_ne_nil a cuts) = c) :
    EqOn f g (Ico a c) ↔ (a :: cuts).IsChain fun b c => EqOn f g (Ico b c) := by
  subst hc
  induction cuts generalizing a with
  | nil => simp
  | cons b cuts ih =>
    rw [List.isChain_cons_cons] at h
    rw [List.getLast_cons (List.cons_ne_nil b cuts), List.isChain_cons_cons, ← ih b h.2]
    exact eqOn_Ico_append h.1 (le_getLast h.2)

theorem eqOn_Ico_succ {f g : ℕ → α} {n : ℕ} : EqOn f g (Ico n (n + 1)) ↔ f n = g n := by
  refine ⟨fun h => h ⟨le_rfl, n.lt_succ_self⟩, fun h i hi => ?_⟩
  rwa [Nat.le_antisymm (Nat.le_of_lt_succ hi.2) hi.1]

/-- Agreement on a range up to a last index, in another spelling of what it is to agree. -/
theorem eqOn_Ico_succ_iff {f g : ℕ → α} {m n : ℕ} {P : ℕ → Prop}
    (h : ∀ i ≤ n, P i ↔ f i = g i) :
    EqOn f g (Ico m (n + 1)) ↔ ∀ i, m ≤ i → i ≤ n → P i := by
  refine ⟨fun he i hi hn => (h i hn).2 (he ⟨hi, Nat.lt_succ_of_le hn⟩), fun hP i hi => ?_⟩
  have hn : i ≤ n := Nat.le_of_lt_succ hi.2
  exact (h i hn).1 (hP i hi.1 hn)

end Rx7.Tiling
