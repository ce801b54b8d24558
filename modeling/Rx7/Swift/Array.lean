import Rx7.Swift.Data

/-!
# Swift's arrays

`remove(at:)` and `insert(_:at:)` trap where the index is out of range; an element can be inserted
behind the last one.
-/

namespace Rx7.Swift

variable {α β : Type}

/-- `remove(at:)`: the element removed, and what is left. -/
def removeAt (l : List α) (i : ℕ) : Except Trap (α × List α) :=
  match l[i]? with
  | some x => .ok (x, l.eraseIdx i)
  | none => .error .indexOutOfRange

/-- `insert(_:at:)`. -/
def insertAt (l : List α) (x : α) (i : ℕ) : Except Trap (List α) :=
  if i ≤ l.length then .ok (l.insertIdx i x) else .error .indexOutOfRange

/-- A removal followed by a computation: the row is there, and the computation goes on with it. -/
theorem bind_removeAt_eq_ok_iff {l : List α} {i : ℕ} {b : β}
    {f : α × List α → Except Trap β} :
    (removeAt l i >>= f) = .ok b ↔ ∃ x, l[i]? = some x ∧ f (x, l.eraseIdx i) = .ok b := by
  unfold removeAt
  cases l[i]? with
  | some x => exact ⟨fun h => ⟨x, rfl, h⟩, fun ⟨y, hy, h⟩ => Option.some.inj hy ▸ h⟩
  | none => exact ⟨fun h => (by cases h), fun ⟨_, hy, _⟩ => (by cases hy)⟩

/-- An insertion followed by a computation. -/
theorem bind_insertAt_eq_ok_iff {l : List α} {x : α} {i : ℕ} {b : β}
    {f : List α → Except Trap β} :
    (insertAt l x i >>= f) = .ok b ↔ i ≤ l.length ∧ f (l.insertIdx i x) = .ok b := by
  unfold insertAt
  split_ifs with h
  · exact (and_iff_right h).symm
  · exact ⟨fun h' => (by cases h'), fun h' => (h h'.1).elim⟩

end Rx7.Swift
