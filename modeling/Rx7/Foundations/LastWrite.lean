import Rx7.Foundations.Transition
import Mathlib.Data.List.Induction

/-!
# Last-writer-wins merging

A history of optional writes, oldest first, has a latest write: the last entry that is not
`none` (`latest`). A register into which every event of a run merges what it writes, the newer value
where it has one and the older otherwise, holds the latest write of the run (`get_run`).
-/

namespace Rx7.LastWrite

open Transition

variable {α : Type*} {l : List (Option α)} {a : α}

/-- The last write of a history, oldest first. -/
def latest (l : List (Option α)) : Option α := l.reverse.findSome? id

@[simp] theorem latest_nil : latest ([] : List (Option α)) = none := rfl

@[simp] theorem latest_concat (l : List (Option α)) (o : Option α) :
    latest (l ++ [o]) = o.or (latest l) := by
  cases o <;> simp [latest]

/-- The latest write is missing exactly where nothing was written. -/
theorem latest_eq_none_iff : latest l = none ↔ ∀ o ∈ l, o = none := by
  simp [latest]

theorem mem_of_latest (h : latest l = some a) : some a ∈ l := by
  obtain ⟨o, ho, rfl⟩ := List.exists_of_findSome?_eq_some h
  exact List.mem_reverse.1 ho

/-- The latest write is the last one that was made. -/
theorem latest_map_eq_getLast? {β : Type*} (f : β → Option α) (l : List β) :
    latest (l.map f) = (l.filterMap f).getLast? := by
  induction l using List.reverseRecOn with
  | nil => rfl
  | append_singleton l x ih =>
    rw [List.map_append, List.map_singleton, latest_concat, ih, List.filterMap_append]
    cases hx : f x <;> simp [hx]

/-- **A register that every step merges holds the latest write.** An event that writes (`write`)
leaves its value where it has one, and the older value otherwise. -/
theorem get_run {σ ε : Type*} {step : σ → ε → σ → Prop} {g : σ → Option α}
    {write : ε → Option (Option α)} {s t : σ} {es : List ε}
    (hstep : ∀ s e t, step s e t → g t = (write e).join.or (g s)) (hs : g s = none)
    (h : Run step s es t) : g t = latest (es.filterMap write) := by
  induction h with
  | nil => exact hs
  | @snoc es e t u _ ht ih =>
    rw [hstep t e u ht, ih, List.filterMap_append]
    cases he : write e <;> simp [he]

end Rx7.LastWrite
