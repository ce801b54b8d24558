import Rx7.Foundations.Transition
import Mathlib.Data.List.ReduceOption

/-!
# Ledgers of requests

A ledger keeps the requests accepted so far, those answered and those pending. A request is
accepted into the pending ones or answered on the spot; a pending one is answered from the head;
or a request is accepted and forgotten (`Step.lose`), the label of that step. Over every run the
accepted requests are, each once, the answered, the pending and the lost ones (`perm_of_run`).
-/

namespace Rx7

open Transition

structure Ledger (κ : Type*) where
  accepted : List κ := []
  answered : List κ := []
  pending : List κ := []

namespace Ledger

variable {κ : Type*}

/-- The steps of a ledger, labelled with the request they lose, if any. -/
inductive Step : Ledger κ → Option κ → Ledger κ → Prop
  | stay (l : Ledger κ) : Step l none l
  | accept (a b p : List κ) (k : κ) : Step ⟨a, b, p⟩ none ⟨a ++ [k], b, p ++ [k]⟩
  | serve (a b p : List κ) (k : κ) : Step ⟨a, b, p⟩ none ⟨a ++ [k], b ++ [k], p⟩
  | answer (a b p : List κ) (k : κ) : Step ⟨a, b, k :: p⟩ none ⟨a, b ++ [k], p⟩
  | lose (a b p : List κ) (k : κ) : Step ⟨a, b, p⟩ (some k) ⟨a ++ [k], b, p⟩

/-- The accepted requests are, each once, the answered, the pending and the given lost ones. -/
def Balanced (l : Ledger κ) (lost : List κ) : Prop :=
  l.accepted.Perm (l.answered ++ l.pending ++ lost)

theorem Step.balanced {l l' : Ledger κ} {label : Option κ} {lost : List κ} (h : Step l label l')
    (hl : l.Balanced lost) : l'.Balanced (lost ++ label.toList) := by
  unfold Balanced at *
  cases h with
  | stay => simpa using hl
  | accept a b p k =>
    have e : b ++ (p ++ [k]) ++ lost = b ++ p ++ ([k] ++ lost) := by simp
    simp only [Option.toList_none, List.append_nil] at hl ⊢
    rw [e]
    exact ((hl.append_right [k]).trans (by simp)).trans (List.perm_append_comm.append_left (b ++ p))
  | serve a b p k =>
    have e : b ++ [k] ++ p ++ lost = b ++ ([k] ++ (p ++ lost)) := by simp
    simp only [Option.toList_none, List.append_nil] at hl ⊢
    rw [e]
    exact ((hl.append_right [k]).trans (by simp)).trans (List.perm_append_comm.append_left b)
  | answer a b p k => simpa using hl
  | lose a b p k =>
    simp only [Option.toList_some] at hl ⊢
    rw [← List.append_assoc]
    exact hl.append_right [k]

/-- **Every accepted request is answered, pending or lost, and only once.** -/
theorem perm_of_run {l : Ledger κ} {labels : List (Option κ)} (h : Run Step {} labels l) :
    l.accepted.Perm (l.answered ++ l.pending ++ labels.reduceOption) := by
  change l.Balanced labels.reduceOption
  induction h with
  | nil => exact List.Perm.refl _
  | snoc _ hs ih =>
    rw [← List.concat_eq_append, List.reduceOption_concat]
    exact hs.balanced ih

/-- Nothing was lost exactly where the accepted requests are the answered and the pending ones. -/
theorem perm_iff_of_run {l : Ledger κ} {labels : List (Option κ)} (h : Run Step {} labels l) :
    l.accepted.Perm (l.answered ++ l.pending) ↔ ∀ label ∈ labels, label = none := by
  have hp := perm_of_run h
  have hnil : labels.reduceOption = [] ↔ ∀ label ∈ labels, label = none := by
    simp [List.reduceOption]
  rw [← hnil]
  refine ⟨fun h' => ?_, fun h' => by simpa [h'] using hp⟩
  have hlen := h'.length_eq.symm.trans hp.length_eq
  simp only [List.length_append] at hlen
  exact List.length_eq_zero_iff.1 (by omega)

end Ledger

end Rx7
