import Mathlib.Data.List.Induction
import Mathlib.Data.List.Pairwise
import Mathlib.Tactic.TypeStar

/-!
# The last entry of a kind

In a list that grows at its end, `lastEntry p l` is the last entry that satisfies `p`, with its
index. It is the last by the index (`index_le_lastEntry`) and by every order that the list is in
(`rel_lastEntry`), and comes later where more entries satisfy the predicate (`lastEntry_mono`).
-/

namespace Rx7.LastEntry

variable {α : Type*} {p q : α → Bool} {l : List α} {a : α} {e : α × ℕ}

/-- The last entry that satisfies `p`, and its index. -/
def lastEntry (p : α → Bool) (l : List α) : Option (α × ℕ) :=
  (l.zipIdx.filter fun e => p e.1).getLast?

@[simp] theorem lastEntry_nil : lastEntry p [] = none := rfl

theorem lastEntry_concat (l : List α) (a : α) :
    lastEntry p (l ++ [a]) = if p a then some (a, l.length) else lastEntry p l := by
  rw [lastEntry, List.zipIdx_append, List.filter_append]
  cases ha : p a <;> simp [ha, lastEntry]

theorem mem_of_lastEntry (h : lastEntry p l = some e) : l[e.2]? = some e.1 ∧ p e.1 = true := by
  have he := List.mem_filter.1 (List.mem_of_getLast? h)
  exact ⟨List.mem_zipIdx_iff_getElem?.1 he.1, he.2⟩

theorem lastEntry_eq_none_iff : lastEntry p l = none ↔ ∀ a ∈ l, p a = false := by
  induction l using List.reverseRecOn with
  | nil => simp
  | append_singleton l a ih =>
    rw [lastEntry_concat, List.forall_mem_append, List.forall_mem_singleton, ← ih]
    cases ha : p a <;> simp

/-- Where the list is in an order, no entry of the kind comes after its last one. -/
theorem rel_lastEntry {R : α → α → Prop} [Std.Refl R] (hR : l.Pairwise R)
    (h : lastEntry p l = some e) : ∀ a ∈ l, p a = true → R a e.1 := by
  induction l using List.reverseRecOn with
  | nil => cases h
  | append_singleton l b ih =>
    obtain ⟨hl, -, hb⟩ := List.pairwise_append.1 hR
    rw [lastEntry_concat] at h
    intro a ha hpa
    rcases List.mem_append.1 ha with ha | ha
    · split_ifs at h with hpb
      · cases h
        exact hb a ha b (List.mem_singleton_self b)
      · exact ih hl h a ha hpa
    · cases List.mem_singleton.1 ha
      rw [if_pos hpa] at h
      cases h
      exact refl_of R _

/-- Every entry of the kind is found at an index up to that of the last one. -/
theorem index_le_lastEntry {i : ℕ} (h : lastEntry p l = some e) (hi : l[i]? = some a)
    (ha : p a = true) : i ≤ e.2 := by
  induction l using List.reverseRecOn with
  | nil => cases h
  | append_singleton l b ih =>
    rw [lastEntry_concat] at h
    have hlt := (List.getElem?_eq_some_iff.1 hi).1
    rw [List.length_append, List.length_singleton] at hlt
    split_ifs at h with hb
    · cases h
      exact Nat.le_of_lt_succ hlt
    · rcases Nat.lt_or_ge i l.length with hil | hil
      · rw [List.getElem?_append_left hil] at hi
        exact ih h hi
      · obtain rfl : i = l.length := by omega
        rw [List.getElem?_concat_length] at hi
        cases hi
        exact (hb ha).elim

/-- Where more entries are of the kind, the last one is there and no earlier. -/
theorem lastEntry_mono (hpq : ∀ a, p a = true → q a = true) (h : lastEntry p l = some e) :
    ∃ e', lastEntry q l = some e' ∧ e.2 ≤ e'.2 := by
  obtain ⟨hi, he⟩ := mem_of_lastEntry h
  cases hq : lastEntry q l with
  | none =>
    have hnone := lastEntry_eq_none_iff.1 hq e.1 (List.mem_of_getElem? hi)
    rw [hpq e.1 he] at hnone
    cases hnone
  | some e' => exact ⟨e', rfl, index_le_lastEntry hq hi (hpq e.1 he)⟩

end Rx7.LastEntry
