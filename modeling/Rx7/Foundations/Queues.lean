import Mathlib.Tactic.SplitIfs
import Mathlib.Tactic.TypeStar
import Mathlib.Logic.Function.Basic

/-!
# Dictionaries of queues

A dictionary from keys to optional queues, where a missing queue counts as an empty one. Adding
at the end creates the queue when the key has none (`enqueue`), as the hand-written idiom "store
a singleton if the key is absent, append otherwise" does; a queue can be dropped (`clear`) and
its head removed (`dequeue`). Each operation changes the queue of its own key only, and only
`enqueue` adds to it.
-/

namespace Rx7.Queues

variable {κ α : Type*}

/-- The queue of a key, empty where the dictionary has none. -/
def queue (d : κ → Option (List α)) (k : κ) : List α := (d k).getD []

theorem queue_of_some {d : κ → Option (List α)} {k : κ} {l : List α} (h : d k = some l) :
    queue d k = l := by
  simp [queue, h]

theorem queue_of_none {d : κ → Option (List α)} {k : κ} (h : d k = none) : queue d k = [] := by
  simp [queue, h]

variable [DecidableEq κ]

/-- Add at the end of the queue of a key, creating it where it is missing. -/
def enqueue (d : κ → Option (List α)) (k : κ) (a : α) : κ → Option (List α) :=
  match d k with
  | none => Function.update d k (some [a])
  | some l => Function.update d k (some (l ++ [a]))

/-- Drop the queue of a key. -/
def clear (d : κ → Option (List α)) (k : κ) : κ → Option (List α) := Function.update d k none

/-- Remove the head of the queue of a key. -/
def dequeue (d : κ → Option (List α)) (k : κ) : κ → Option (List α) :=
  Function.update d k ((d k).map List.tail)

variable (d : κ → Option (List α)) (k : κ) (a : α)

theorem queue_enqueue (k' : κ) :
    queue (enqueue d k a) k' = if k' = k then queue d k ++ [a] else queue d k' := by
  cases hd : d k <;> by_cases hk : k' = k <;> simp [queue, enqueue, hd, hk]

@[simp] theorem queue_clear_self : queue (clear d k) k = [] := by simp [queue, clear]

theorem queue_clear_of_ne {k' : κ} (h : k' ≠ k) : queue (clear d k) k' = queue d k' := by
  simp [queue, clear, Function.update_of_ne h]

@[simp] theorem queue_dequeue_self : queue (dequeue d k) k = (queue d k).tail := by
  cases hd : d k <;> simp [queue, dequeue, hd]

theorem queue_dequeue_of_ne {k' : κ} (h : k' ≠ k) : queue (dequeue d k) k' = queue d k' := by
  simp [queue, dequeue, Function.update_of_ne h]

variable {d k a}

theorem mem_queue_enqueue {k' : κ} {b : α} (h : b ∈ queue (enqueue d k a) k') :
    b ∈ queue d k' ∨ k' = k ∧ b = a := by
  rw [queue_enqueue] at h
  split_ifs at h with hk
  · subst hk
    exact (List.mem_append.1 h).imp_right fun h => ⟨rfl, List.mem_singleton.1 h⟩
  · exact .inl h

theorem mem_of_mem_queue_clear {k' : κ} (h : a ∈ queue (clear d k) k') : a ∈ queue d k' := by
  by_cases hk : k' = k
  · subst hk
    rw [queue_clear_self] at h
    cases h
  · rwa [queue_clear_of_ne _ _ hk] at h

theorem mem_of_mem_queue_dequeue {k' : κ} (h : a ∈ queue (dequeue d k) k') : a ∈ queue d k' := by
  by_cases hk : k' = k
  · subst hk
    rw [queue_dequeue_self] at h
    exact List.mem_of_mem_tail h
  · rwa [queue_dequeue_of_ne _ _ hk] at h

end Rx7.Queues
