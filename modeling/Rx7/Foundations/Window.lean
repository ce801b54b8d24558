import Mathlib.Data.List.DropRight
import Mathlib.Tactic.TypeStar

/-!
# Sliding windows

A list that is appended to, and loses its first entry where it has become longer than `k`, holds
the last `k` entries of its history (`trim_rtake_concat`). Where the entries are numbered, the
window holds the numbers up to that of the last one (`rtake_range'`).
-/

namespace Rx7.Window

variable {α : Type*}

/-- Drop the first entry of a list of more than `k` entries. -/
def trim (k : ℕ) (l : List α) : List α := if l.length > k then l.eraseIdx 0 else l

/-- **A window slides.** The last `k` entries and one more, trimmed, are the last `k` entries. -/
theorem trim_rtake_concat (k : ℕ) (l : List α) (a : α) :
    trim k (l.rtake k ++ [a]) = (l ++ [a]).rtake k := by
  have hconcat : l.rtake k ++ [a] = (l ++ [a]).drop (l.length - k) :=
    (List.drop_append_of_le_length (Nat.sub_le _ _)).symm
  have hlength : ((l ++ [a]).drop (l.length - k)).length = l.length + 1 - (l.length - k) := by
    rw [List.length_drop, List.length_append, List.length_singleton]
  rw [hconcat, trim, hlength, List.rtake, List.length_append, List.length_singleton]
  split_ifs with h
  · have hdrop : l.length + 1 - k = l.length - k + 1 := by omega
    rw [List.eraseIdx_zero, List.tail_drop, hdrop]
  · have hdrop : l.length + 1 - k = l.length - k := by omega
    rw [hdrop]

theorem rtake_map {β : Type*} (f : α → β) (k : ℕ) (l : List α) :
    (l.map f).rtake k = (l.rtake k).map f := by
  rw [List.rtake, List.rtake, List.map_drop, List.length_map]

/-- The last `k` of `n` consecutive numbers. -/
theorem rtake_range' (s n k : ℕ) :
    (List.range' s n).rtake k = List.range' (s + (n - min n k)) (min n k) := by
  have hdrop : n - k = n - min n k := by omega
  have hkeep : n - (n - min n k) = min n k := by omega
  rw [List.rtake, List.length_range', hdrop, List.drop_range', hkeep, Nat.mul_one]

end Rx7.Window
