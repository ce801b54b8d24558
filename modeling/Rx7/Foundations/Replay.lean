import Mathlib.Tactic.TypeStar
import Mathlib.Data.List.Basic

/-!
# Observables that replay

An observable that replays calls an observer with its present value, and then with each value it
is sent. An observer that joined when `since` values had been sent has heard the last one of them,
if there was any, and all that were sent later (`heard`).
-/

namespace Rx7.Replay

variable {α : Type*} {sent : List α} {since a b : ℕ}

/-- What an observer has heard that joined when `since` values had been sent. -/
def heard (sent : List α) (since : ℕ) : List α := sent.drop (since - 1)

/-- To join is to hear the present value. -/
theorem heard_join (sent : List α) : heard sent sent.length = sent.getLast?.toList := by
  cases h : sent.getLast? with
  | none =>
    obtain rfl := List.getLast?_eq_none_iff.1 h
    rfl
  | some v =>
    obtain ⟨pre, rfl⟩ := List.getLast?_eq_some_iff.1 h
    simp [heard]

theorem heard_send (h : since ≤ sent.length) (v : α) :
    heard (sent ++ [v]) since = heard sent since ++ [v] :=
  List.drop_append_of_le_length (Nat.le_trans (Nat.sub_le _ _) h)

/-- Of the values sent behind the first `a`, and of the present value and those behind it once `b`
were sent, an observer that joins at the later of the two moments has heard no more exactly where
`a` is 0, so that there was nothing to replay, or the smaller. -/
theorem map_heard_max_eq_iff {β : Type*} (f : α → β) (ha : a ≤ sent.length) (hb : b ≤ sent.length) :
    (heard sent (max a b)).map f = (sent.drop (max a (b - 1))).map f ↔ a = 0 ∨ a < b := by
  constructor
  · intro h
    have hlength := congrArg List.length h
    simp only [heard, List.length_map, List.length_drop] at hlength
    omega
  · intro h
    have hfirst : max a b - 1 = max a (b - 1) := by omega
    rw [heard, hfirst]

end Rx7.Replay
