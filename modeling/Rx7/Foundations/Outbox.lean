import Rx7.Foundations.Transition
import Mathlib.Data.List.Basic

/-!
# Outboxes with acknowledgements

An outbox issues requests, each with a handler. The requests are acknowledged in order
(`inFlight` are those that are not yet), and an acknowledgement is to complete the handler at the
head of those waiting. It can also be missed, which its label says, and then completes none. Over
every run the handlers are completed in the order of the requests, and the acknowledgements keep
step with them (`InOrder`) exactly where none was missed (`inOrder_iff_of_run`).
-/

namespace Rx7

open Transition

structure Outbox (κ : Type*) where
  issued : List κ := []
  inFlight : List κ := []
  waiting : List κ := []
  completed : List κ := []
  acknowledged : ℕ := 0

namespace Outbox

variable {κ : Type*}

/-- The steps of an outbox; an acknowledgement is labelled with whether it was taken. -/
inductive Step : Outbox κ → Option Bool → Outbox κ → Prop
  | stay (o : Outbox κ) : Step o none o
  | issue (i f w c : List κ) (n : ℕ) (k : κ) :
    Step ⟨i, f, w, c, n⟩ none ⟨i ++ [k], f ++ [k], w ++ [k], c, n⟩
  | complete (i f w c : List κ) (n : ℕ) (k j : κ) :
    Step ⟨i, k :: f, j :: w, c, n⟩ (some true) ⟨i, f, w, c ++ [j], n + 1⟩
  | idle (i f c : List κ) (n : ℕ) (k : κ) :
    Step ⟨i, k :: f, [], c, n⟩ (some true) ⟨i, f, [], c, n + 1⟩
  | miss (i f w c : List κ) (n : ℕ) (k : κ) :
    Step ⟨i, k :: f, w, c, n⟩ (some false) ⟨i, f, w, c, n + 1⟩

/-- The `n` acknowledged requests, and no others, have had their handlers completed. -/
def InOrder (o : Outbox κ) : Prop :=
  o.completed = o.issued.take o.acknowledged ∧ o.waiting = o.issued.drop o.acknowledged ∧
    o.waiting.length = o.inFlight.length

/-- What an outbox keeps, where `missed` acknowledgements were missed. -/
structure Kept (o : Outbox κ) (missed : ℕ) : Prop where
  issued_eq : o.issued = o.completed ++ o.waiting
  inFlight_eq : o.inFlight = o.issued.drop o.acknowledged
  acknowledged_le : o.acknowledged ≤ o.issued.length
  acknowledged_eq : o.acknowledged = o.completed.length + missed

variable {o o' : Outbox κ} {label : Option Bool} {labels : List (Option Bool)} {missed : ℕ}

/-- Of the requests from the `n`-th on, the first is there and the others follow it. -/
theorem of_cons_eq_drop {i f : List κ} {n : ℕ} {k : κ} (h : k :: f = i.drop n) :
    n < i.length ∧ f = i.drop (n + 1) := by
  have hlen := congrArg List.length h
  simp only [List.length_cons, List.length_drop] at hlen
  exact ⟨by omega, by rw [← List.tail_drop, ← h, List.tail_cons]⟩

theorem Step.kept (h : Step o label o') (ho : o.Kept missed) :
    o'.Kept (missed + if label = some false then 1 else 0) := by
  obtain ⟨hi, hf, hle, hn⟩ := ho
  cases h with
  | stay => exact ⟨hi, hf, hle, by simpa using hn⟩
  | issue i f w c n k =>
    simp only at hi hf hle hn
    refine ⟨?_, ?_, ?_, by simpa using hn⟩
    · simp only [hi, List.append_assoc]
    · simp only [hf, List.drop_append_of_le_length hle]
    · simp only [List.length_append]
      omega
  | complete i f w c n k j =>
    simp only at hi hf hle hn
    obtain ⟨hlt, hf⟩ := of_cons_eq_drop hf
    exact ⟨by simp [hi], hf, hlt, by simp [hn]; omega⟩
  | idle i f c n k =>
    -- All issued requests are completed, and yet one is in flight.
    simp only at hi hf hle hn
    have hlt := (of_cons_eq_drop hf).1
    simp only [hi, List.length_append, List.length_nil] at hlt
    omega
  | miss i f w c n k =>
    simp only at hi hf hle hn
    obtain ⟨hlt, hf⟩ := of_cons_eq_drop hf
    exact ⟨hi, hf, hlt, by simp [hn]; omega⟩

theorem kept_of_run (h : Run Step {} labels o) : o.Kept (labels.count (some false)) := by
  induction h with
  | nil => exact ⟨rfl, rfl, Nat.le_refl _, rfl⟩
  | snoc _ hs ih => simpa [List.count_append, List.count_singleton] using hs.kept ih

/-- **The handlers keep step with the acknowledgements exactly where none was missed.** -/
theorem inOrder_iff_of_run (h : Run Step {} labels o) :
    o.InOrder ↔ ∀ label ∈ labels, label ≠ some false := by
  obtain ⟨hi, hf, hle, hn⟩ := kept_of_run h
  have hcount : labels.count (some false) = 0 ↔ ∀ label ∈ labels, label ≠ some false := by
    rw [List.count_eq_zero]
    exact ⟨fun h l hl he => h (he ▸ hl), fun h hl => h _ hl rfl⟩
  rw [← hcount]
  refine ⟨fun ⟨hc, _⟩ => ?_, fun hm => ?_⟩
  · have hlen := congrArg List.length hc
    rw [List.length_take_of_le hle] at hlen
    omega
  · have hk : o.acknowledged = o.completed.length := by omega
    have hw : o.waiting = o.issued.drop o.acknowledged := by rw [hi, hk, List.drop_left]
    exact ⟨by rw [hi, hk, List.take_left], hw, by rw [hw, hf]⟩

/-- The request acknowledged next is the one whose handler is completed next, as long as no
acknowledgement was missed. -/
theorem inFlight_eq_waiting_of_run (h : Run Step {} labels o)
    (hl : ∀ label ∈ labels, label ≠ some false) : o.inFlight = o.waiting := by
  rw [((inOrder_iff_of_run h).2 hl).2.1, (kept_of_run h).inFlight_eq]

end Outbox

end Rx7
