import Rx7.Foundations.Transition

/-!
# Deferred writes

A view is not written at once: blocks are posted to a queue, which runs them later, in order, and a
block writes the view or leaves it. What the view will show when the blocks posted so far have run
is `due`. Where every step runs some of the posted blocks and posts others, which write what the
model behind the view has become, the due value is that of the model in every run
(`due_eq_of_run`), and so is the shown one whenever the queue is empty (`shown_eq_of_run`).
-/

namespace Rx7.Deferred

open Transition

variable {β ρ : Type*} {write : β → Option ρ}

/-- What will be shown when the posted blocks have run. -/
def due (write : β → Option ρ) (shown : ρ) (posted : List β) : ρ :=
  posted.foldl (fun shown block => (write block).getD shown) shown

@[simp] theorem due_nil (shown : ρ) : due write shown [] = shown := rfl

@[simp] theorem due_cons (shown : ρ) (block : β) (posted : List β) :
    due write shown (block :: posted) = due write ((write block).getD shown) posted := rfl

theorem due_append (shown : ρ) (posted later : List β) :
    due write shown (posted ++ later) = due write (due write shown posted) later :=
  List.foldl_append

section Run

variable {σ ε : Type*}

/-- A step runs the first of the posted blocks and posts others, for what the model becomes. -/
def Step (write : β → Option ρ) (model shown : σ → ρ) (posted : σ → List β) (s t : σ) : Prop :=
  ∃ ran rest later, posted s = ran ++ rest ∧ posted t = rest ++ later ∧
    shown t = due write (shown s) ran ∧ model t = due write (model s) later

variable {step : σ → ε → σ → Prop} {model shown : σ → ρ} {posted : σ → List β} {s t : σ}
  {es : List ε}

theorem Step.due_eq (h : Step write model shown posted s t)
    (hs : due write (shown s) (posted s) = model s) :
    due write (shown t) (posted t) = model t := by
  obtain ⟨ran, rest, later, hposted, hposted', hshown, hmodel⟩ := h
  rw [hposted, due_append] at hs
  rw [hposted', hshown, due_append, hs, hmodel]

/-- **What is due is what the model says**, in every run. -/
theorem due_eq_of_run (hstep : ∀ s e t, step s e t → Step write model shown posted s t)
    (h0 : due write (shown s) (posted s) = model s) (h : Run step s es t) :
    due write (shown t) (posted t) = model t :=
  h.invariant (I := fun s => due write (shown s) (posted s) = model s) h0
    fun _ _ _ hs ht => (hstep _ _ _ ht).due_eq hs

/-- So a view whose queue is empty shows what the model says. -/
theorem shown_eq_of_run (hstep : ∀ s e t, step s e t → Step write model shown posted s t)
    (h0 : due write (shown s) (posted s) = model s) (h : Run step s es t) (hempty : posted t = []) :
    shown t = model t := by
  have hdue := due_eq_of_run hstep h0 h
  rwa [hempty, due_nil] at hdue

end Run

end Rx7.Deferred
