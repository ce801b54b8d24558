import Rx7.Foundations.Transition
import Mathlib.Data.List.Basic

/-!
# Broadcasting to listeners

A broadcaster has listeners, to which one is added at the end at any moment. An update carries its
value to those who are listeners when it begins: they are called one after the other, in the order
of their subscription, while others are added. Over every run the calls made and the calls that
remain to be made are those that are due (`calls_of_run`): each update's value to each listener of
that moment, in order. So a listener is called with the values of the updates that began behind
its subscription, and no others (`valuesOf_due`).
-/

namespace Rx7

open Transition

structure Broadcast (κ β : Type*) where
  listeners : List κ := []
  calls : List (κ × β) := []
  remaining : List (κ × β) := []

namespace Broadcast

variable {κ β : Type*}

/-- What a step of a broadcaster is for. -/
inductive Label (κ β : Type*)
  | internal
  | subscribe (listener : κ)
  | update (value : β)

inductive Step : Broadcast κ β → Label κ β → Broadcast κ β → Prop
  | stay (b : Broadcast κ β) : Step b .internal b
  | call (ls : List κ) (cs done rest : List (κ × β)) :
    Step ⟨ls, cs, done ++ rest⟩ .internal ⟨ls, cs ++ done, rest⟩
  | subscribe (ls : List κ) (cs rest : List (κ × β)) (k : κ) :
    Step ⟨ls, cs, rest⟩ (.subscribe k) ⟨ls ++ [k], cs, rest⟩
  | update (ls : List κ) (cs done rest : List (κ × β)) (v : β)
    (h : done ++ rest = ls.map fun k => (k, v)) :
    Step ⟨ls, cs, []⟩ (.update v) ⟨ls, cs ++ done, rest⟩

def Label.subscriber : Label κ β → Option κ
  | .subscribe k => some k
  | _ => none

def Label.value : Label κ β → Option β
  | .update v => some v
  | _ => none

/-- The listeners that a history adds, in order. -/
def subscribed (labels : List (Label κ β)) : List κ := labels.filterMap Label.subscriber

/-- The values of the updates of a history, in order. -/
def updates (labels : List (Label κ β)) : List β := labels.filterMap Label.value

/-- The calls that a history asks for, where it begins with the listeners `ls`. -/
def due (ls : List κ) : List (Label κ β) → List (κ × β)
  | [] => []
  | .internal :: labels => due ls labels
  | .subscribe k :: labels => due (ls ++ [k]) labels
  | .update v :: labels => ls.map (fun k => (k, v)) ++ due ls labels

@[simp] theorem due_nil (ls : List κ) : due ls ([] : List (Label κ β)) = [] := rfl

theorem due_append (ls : List κ) (labels labels' : List (Label κ β)) :
    due ls (labels ++ labels') = due ls labels ++ due (ls ++ subscribed labels) labels' := by
  induction labels generalizing ls with
  | nil => simp [subscribed]
  | cons label labels ih =>
    cases label with
    | internal => exact ih ls
    | subscribe k =>
      have h := ih (ls ++ [k])
      rw [List.append_assoc, List.singleton_append] at h
      exact h
    | update v =>
      have h := congrArg (ls.map (fun k => (k, v)) ++ ·) (ih ls)
      rw [← List.append_assoc] at h
      exact h

theorem subscribed_append (labels labels' : List (Label κ β)) :
    subscribed (labels ++ labels') = subscribed labels ++ subscribed labels' :=
  List.filterMap_append

/-- **The calls made and those that remain are the calls that are due.** -/
theorem calls_of_run {b : Broadcast κ β} {labels : List (Label κ β)} (h : Run Step {} labels b) :
    b.listeners = subscribed labels ∧ b.calls ++ b.remaining = due [] labels := by
  induction h with
  | nil => exact ⟨rfl, rfl⟩
  | snoc _ hs ih =>
    obtain ⟨hl, hc⟩ := ih
    rw [subscribed_append, due_append, ← hc, List.nil_append, ← hl]
    cases hs with
    | stay b => exact ⟨by simp [subscribed, Label.subscriber], by simp [due]⟩
    | call ls cs done rest => exact ⟨by simp [subscribed, Label.subscriber], by simp [due]⟩
    | subscribe ls cs rest k => exact ⟨by simp [subscribed, Label.subscriber], by simp [due]⟩
    | update ls cs done rest v h =>
      exact ⟨by simp [subscribed, Label.subscriber], by simp [due, List.append_assoc, h]⟩

section Listener

variable [DecidableEq κ]

/-- The values that one listener is called with. -/
def valuesOf (k : κ) (calls : List (κ × β)) : List β :=
  calls.filterMap fun call => if call.1 = k then some call.2 else none

theorem valuesOf_append (k : κ) (calls calls' : List (κ × β)) :
    valuesOf k (calls ++ calls') = valuesOf k calls ++ valuesOf k calls' :=
  List.filterMap_append

theorem valuesOf_map (k : κ) (ls : List κ) (v : β) :
    valuesOf k (ls.map fun k => (k, v)) = List.replicate (ls.count k) v := by
  induction ls with
  | nil => rfl
  | cons l ls ih =>
    by_cases hl : l = k
    · subst hl
      rw [List.count_cons_self, List.replicate_succ, ← ih]
      simp [valuesOf]
    · rw [List.count_cons_of_ne hl, ← ih]
      simp [valuesOf, hl]

/-- A listener that was added `n` times, and is added no more, is called `n` times for each
update. -/
theorem valuesOf_due_of_count {k : κ} {ls : List κ} {labels : List (Label κ β)}
    (h : k ∉ subscribed labels) :
    valuesOf k (due ls labels) = (updates labels).flatMap (List.replicate (ls.count k)) := by
  induction labels generalizing ls with
  | nil => rfl
  | cons label labels ih =>
    cases label with
    | internal => exact ih (by simpa [subscribed, Label.subscriber] using h)
    | subscribe k' =>
      obtain ⟨hne, h⟩ : k ≠ k' ∧ k ∉ subscribed labels := by
        simpa [subscribed, Label.subscriber] using h
      have hcount : (ls ++ [k']).count k = ls.count k := by
        rw [List.count_append, List.count_singleton, if_neg (by simpa using hne.symm), Nat.add_zero]
      rw [due, ih h, hcount]
      rfl
    | update v =>
      have hrest : valuesOf k (due ls labels) =
          (updates labels).flatMap (List.replicate (ls.count k)) :=
        ih (by simpa [subscribed, Label.subscriber] using h)
      rw [due, valuesOf_append, valuesOf_map, hrest]
      rfl

/-- **A listener is called with the values of the updates behind its subscription.** -/
theorem valuesOf_due {k : κ} {labels labels' : List (Label κ β)} (h : k ∉ subscribed labels)
    (h' : k ∉ subscribed labels') :
    valuesOf k (due [] (labels ++ .subscribe k :: labels')) = updates labels' := by
  have hcount : ([] ++ subscribed labels ++ [k]).count k = 1 := by
    simp [List.count_eq_zero.2 h]
  rw [due_append, valuesOf_append, due, valuesOf_due_of_count h, valuesOf_due_of_count h', hcount,
    List.count_nil]
  have hnone : ∀ vs : List β, vs.flatMap (List.replicate 0) = [] := by
    intro vs
    simp
  have hone : ∀ vs : List β, vs.flatMap (List.replicate 1) = vs := by
    intro vs
    induction vs with
    | nil => rfl
    | cons v vs ih => exact congrArg (v :: ·) ih
  rw [hnone, hone, List.nil_append]

end Listener

end Broadcast

end Rx7
