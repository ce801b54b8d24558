import Mathlib.Algebra.BigOperators.Group.Finset.Basic
import Mathlib.Algebra.BigOperators.Group.Multiset.Basic
import Mathlib.Algebra.Order.Group.Multiset
import Mathlib.Data.List.InsertIdx
import Mathlib.Tactic.TypeStar

/-!
# Lists in sections

A table of rows in sections is a list for each section. A row is added at the end of a section,
removed from where it is, or moved: taken out, and put in at a place of the table that is left
(`Edit`). An edit that names no row, or no place, has no result. `replay` makes edits in order.

Taking a row out and putting one in at the same place undo each other, so that a move is undone by
the move back (`apply_move_reverse`); it leaves the rows of all sections as they are (`rows_move`).

An edit's effect on the number of rows (`size`) is known without the rows, which is enough to tell
that edits made before a table was delivered cannot be recovered from those made later
(`replay_append_ne`).
-/

namespace Rx7.Sections

open Function

variable {ι α : Type*} [DecidableEq ι]

/-- The edits of a table; a row's place is its section and its index there. -/
inductive Edit (ι α : Type*)
  | add (s : ι) (x : α)
  | remove (source : ι × ℕ)
  | move (source destination : ι × ℕ)
  deriving DecidableEq

/-- Take a row out. -/
def take (l : ι → List α) (source : ι × ℕ) : Option (α × (ι → List α)) :=
  (l source.1)[source.2]?.map fun x =>
    (x, Function.update l source.1 ((l source.1).eraseIdx source.2))

/-- Put a row in, at most behind the last one. -/
def put (l : ι → List α) (destination : ι × ℕ) (x : α) : Option (ι → List α) :=
  if destination.2 ≤ (l destination.1).length then
    some (Function.update l destination.1 ((l destination.1).insertIdx destination.2 x))
  else none

def Edit.apply (l : ι → List α) : Edit ι α → Option (ι → List α)
  | .add s x => some (Function.update l s (l s ++ [x]))
  | .remove source => (take l source).map Prod.snd
  | .move source destination => do
    let (x, l) ← take l source
    put l destination x

/-- Make the edits in order. -/
def replay (edits : List (Edit ι α)) (l : ι → List α) : Option (ι → List α) :=
  edits.foldlM Edit.apply l

@[simp] theorem replay_nil (l : ι → List α) : replay [] l = some l := rfl

theorem replay_append (edits edits' : List (Edit ι α)) (l : ι → List α) :
    replay (edits ++ edits') l = (replay edits l).bind (replay edits') :=
  List.foldlM_append

theorem replay_concat {edits : List (Edit ι α)} {l l' l'' : ι → List α} {edit : Edit ι α}
    (h : replay edits l = some l') (h' : edit.apply l' = some l'') :
    replay (edits ++ [edit]) l = some l'' := by
  rw [replay_append, h]
  simpa [replay] using h'

/-- Whether an edit adds a row. -/
def Edit.isAdd : Edit ι α → Bool
  | .add .. => true
  | _ => false

/-- Whether an edit removes a row. -/
def Edit.isRemove : Edit ι α → Bool
  | .remove _ => true
  | _ => false

/-! ## Rows taken out and put in again -/

section Inverse

variable {l l' : ι → List α} {p q : ι × ℕ} {x : α}

theorem take_eq_some_iff :
    take l p = some (x, l') ↔
      (l p.1)[p.2]? = some x ∧ l' = update l p.1 ((l p.1).eraseIdx p.2) := by
  simp only [take, Option.map_eq_some_iff, Prod.mk.injEq]
  exact ⟨fun ⟨y, hy, hx, hl⟩ => ⟨hx ▸ hy, hl.symm⟩, fun ⟨hx, hl⟩ => ⟨x, hx, rfl, hl.symm⟩⟩

theorem put_eq_some_iff :
    put l p x = some l' ↔
      p.2 ≤ (l p.1).length ∧ l' = update l p.1 ((l p.1).insertIdx p.2 x) := by
  unfold put
  split_ifs with h
  · rw [Option.some.injEq, eq_comm]
    exact (and_iff_right h).symm
  · exact ⟨fun h' => (by cases h'), fun h' => (h h'.1).elim⟩

/-- A row that was put in is taken out at its place. -/
theorem take_of_put (h : put l p x = some l') : take l' p = some (x, l) := by
  obtain ⟨hle, rfl⟩ := put_eq_some_iff.1 h
  refine take_eq_some_iff.2 ⟨?_, ?_⟩
  · rw [update_self, List.getElem?_insertIdx_self, if_pos hle]
  · rw [update_self, List.eraseIdx_insertIdx_self, update_idem, update_eq_self]

/-- A row that was taken out is put in at its place. -/
theorem put_of_take (h : take l p = some (x, l')) : put l' p x = some l := by
  obtain ⟨hx, rfl⟩ := take_eq_some_iff.1 h
  obtain ⟨hlt, rfl⟩ := List.getElem?_eq_some_iff.1 hx
  refine put_eq_some_iff.2 ⟨?_, ?_⟩
  · rw [update_self, List.length_eraseIdx_of_lt hlt]
    omega
  · rw [update_self, List.insertIdx_eraseIdx_getElem hlt, update_idem, update_eq_self]

/-- A row that is put in makes its section longer by one. -/
theorem length_put (h : put l p x = some l') (s : ι) :
    (l' s).length = (l s).length + if p.1 = s then 1 else 0 := by
  obtain ⟨hle, rfl⟩ := put_eq_some_iff.1 h
  split_ifs with hs
  · subst hs
    rw [update_self, List.length_insertIdx_of_le_length hle]
  · rw [update_of_ne (Ne.symm hs), Nat.add_zero]

theorem length_take (h : take l p = some (x, l')) (s : ι) :
    (l s).length = (l' s).length + if p.1 = s then 1 else 0 :=
  length_put (put_of_take h) s

theorem apply_move_eq_some_iff :
    (Edit.move p q).apply l = some l' ↔
      ∃ x rest, take l p = some (x, rest) ∧ put rest q x = some l' := by
  simp only [Edit.apply, Option.bind_eq_bind, Option.bind_eq_some_iff, Prod.exists]

/-- **A move is reversible**: the move back restores the table. -/
theorem apply_move_reverse (h : (Edit.move p q).apply l = some l') :
    (Edit.move q p).apply l' = some l := by
  obtain ⟨x, rest, htake, hput⟩ := apply_move_eq_some_iff.1 h
  exact apply_move_eq_some_iff.2 ⟨x, rest, take_of_put hput, put_of_take htake⟩

/-- A move has a result where both places are in range, the second in what the first leaves. -/
theorem exists_apply_move_iff :
    (∃ l', (Edit.move p q).apply l = some l') ↔
      p.2 < (l p.1).length ∧ q.2 + (if p.1 = q.1 then 1 else 0) ≤ (l q.1).length := by
  constructor
  · rintro ⟨l', h⟩
    obtain ⟨x, rest, htake, hput⟩ := apply_move_eq_some_iff.1 h
    have hle := (put_eq_some_iff.1 hput).1
    rw [length_take htake q.1]
    exact ⟨(List.getElem?_eq_some_iff.1 (take_eq_some_iff.1 htake).1).1, by omega⟩
  · rintro ⟨hlt, hle⟩
    have htake : take l p = some ((l p.1)[p.2], update l p.1 ((l p.1).eraseIdx p.2)) :=
      take_eq_some_iff.2 ⟨List.getElem?_eq_getElem hlt, rfl⟩
    rw [length_take htake q.1] at hle
    exact ⟨_, apply_move_eq_some_iff.2
      ⟨_, _, htake, put_eq_some_iff.2 ⟨Nat.le_of_add_le_add_right hle, rfl⟩⟩⟩

theorem length_apply_move (h : (Edit.move p q).apply l = some l') (s : ι) :
    (l' s).length + (if p.1 = s then 1 else 0) =
      (l s).length + if q.1 = s then 1 else 0 := by
  obtain ⟨x, rest, htake, hput⟩ := apply_move_eq_some_iff.1 h
  rw [length_put hput s, length_take htake s, Nat.add_right_comm]

end Inverse

section Size

variable [Fintype ι]

/-- The rows of all sections, in no order. -/
def rows (l : ι → List α) : Multiset α := ∑ s, (l s : Multiset α)

theorem rows_update (l : ι → List α) (s : ι) (xs : List α) :
    rows (update l s xs) + l s = rows l + xs := by
  have hl := Finset.add_sum_erase Finset.univ (fun s => (l s : Multiset α)) (Finset.mem_univ s)
  have hu := Finset.add_sum_erase Finset.univ (fun s' => (update l s xs s' : Multiset α))
    (Finset.mem_univ s)
  have hrest : ∑ s' ∈ Finset.univ.erase s, (update l s xs s' : Multiset α) =
      ∑ s' ∈ Finset.univ.erase s, (l s' : Multiset α) :=
    Finset.sum_congr rfl fun s' hs' => by rw [update_of_ne (Finset.ne_of_mem_erase hs')]
  rw [hrest, update_self] at hu
  rw [rows, rows, ← hl, ← hu]
  ac_rfl

theorem rows_put {l l' : ι → List α} {p : ι × ℕ} {x : α} (h : put l p x = some l') :
    rows l' = x ::ₘ rows l := by
  obtain ⟨hle, rfl⟩ := put_eq_some_iff.1 h
  have hrows := rows_update l p.1 ((l p.1).insertIdx p.2 x)
  rw [Multiset.coe_eq_coe.2 (List.perm_insertIdx x (l p.1) hle), ← Multiset.cons_coe,
    Multiset.add_cons, ← Multiset.cons_add] at hrows
  exact add_right_cancel hrows

theorem rows_take {l l' : ι → List α} {p : ι × ℕ} {x : α} (h : take l p = some (x, l')) :
    rows l = x ::ₘ rows l' :=
  rows_put (put_of_take h)

/-- **A move loses no row** and makes none. -/
theorem rows_move {l l' : ι → List α} {p q : ι × ℕ}
    (h : (Edit.move p q).apply l = some l') : rows l' = rows l := by
  obtain ⟨x, rest, htake, hput⟩ := apply_move_eq_some_iff.1 h
  rw [rows_put hput, rows_take htake]

/-- The number of rows. -/
def size (l : ι → List α) : ℕ := ∑ s, (l s).length

omit [DecidableEq ι] in
theorem size_eq_card (l : ι → List α) : size l = Multiset.card (rows l) := by
  simp [size, rows]

theorem size_update (l : ι → List α) (s : ι) (xs : List α) :
    size (update l s xs) + (l s).length = size l + xs.length := by
  simpa [size_eq_card] using congrArg Multiset.card (rows_update l s xs)

theorem size_take {l l' : ι → List α} {source : ι × ℕ} {x : α} (h : take l source = some (x, l')) :
    size l = size l' + 1 := by
  rw [size_eq_card, size_eq_card, rows_take h, Multiset.card_cons]

theorem size_put {l l' : ι → List α} {destination : ι × ℕ} {x : α}
    (h : put l destination x = some l') : size l' = size l + 1 := by
  rw [size_eq_card, size_eq_card, rows_put h, Multiset.card_cons]

theorem size_apply {l l' : ι → List α} {edit : Edit ι α} (he : edit.isRemove = false)
    (h : edit.apply l = some l') : size l' = size l + if edit.isAdd then 1 else 0 := by
  cases edit with
  | add s x =>
    have hsize := size_update l s (l s ++ [x])
    rw [Option.some.inj h, List.length_append, List.length_singleton] at hsize
    simp only [Edit.isAdd, if_true]
    omega
  | remove source => cases he
  | move source destination =>
    obtain ⟨⟨x, m⟩, hm, hput⟩ := Option.bind_eq_some_iff.1 h
    have htake := size_take hm
    have hput := size_put hput
    simp only [Edit.isAdd, Bool.false_eq_true, if_false]
    omega

/-- Without removals, each added row is one more. -/
theorem size_replay {l l' : ι → List α} {edits : List (Edit ι α)}
    (he : ∀ edit ∈ edits, edit.isRemove = false) (h : replay edits l = some l') :
    size l' = size l + edits.countP Edit.isAdd := by
  induction edits generalizing l with
  | nil =>
    obtain rfl : l = l' := by simpa using h
    simp
  | cons edit edits ih =>
    obtain ⟨m, hm, hl⟩ := Option.bind_eq_some_iff.1 h
    have hone := size_apply (he edit List.mem_cons_self) hm
    have hrest := ih (fun e h => he e (List.mem_cons_of_mem _ h)) hl
    rw [hrest, hone, List.countP_cons]
    omega

end Size

/-- In an empty table there is nothing to move, so that the first edit adds a row. -/
theorem countP_isAdd_pos {l : ι → List α} {edits : List (Edit ι α)} (hne : edits ≠ [])
    (he : ∀ edit ∈ edits, edit.isRemove = false)
    (h : replay edits (fun _ => []) = some l) : 0 < edits.countP Edit.isAdd := by
  cases edits with
  | nil => exact (hne rfl).elim
  | cons edit edits =>
    obtain ⟨m, hm, -⟩ := Option.bind_eq_some_iff.1 h
    cases edit with
    | add s x => simp [Edit.isAdd]
    | remove source => cases he _ List.mem_cons_self
    | move source destination =>
      simp [Edit.apply, take] at hm

/-- **Edits made blindly are not recovered.** Where the edits made to an empty table are left out
of a delivered one, the later edits do not give what all of them would. -/
theorem replay_append_ne [Fintype ι] {blind later : List (Edit ι α)} {delivered l l' : ι → List α}
    (hne : blind ≠ []) (hblind : ∀ edit ∈ blind, edit.isRemove = false)
    (hlater : ∀ edit ∈ later, edit.isRemove = false)
    (h : replay blind (fun _ => []) = some l) (h' : replay later delivered = some l') :
    replay (blind ++ later) delivered ≠ some l' := by
  intro hall
  have hsize := size_replay hlater h'
  have hsize' := size_replay
    (fun e he => (List.mem_append.1 he).elim (hblind e) (hlater e)) hall
  have hpos := countP_isAdd_pos hne hblind h
  rw [List.countP_append] at hsize'
  omega

end Rx7.Sections
