import Mathlib.Algebra.Order.Round
import Mathlib.Data.Int.Log
import Mathlib.Data.Rat.Floor
import Mathlib.Tactic.Linarith
import Mathlib.Tactic.Positivity
import Mathlib.Tactic.FieldSimp

/-!
# Rounding to significant binary digits

`toSignificant p` rounds a number to `p` binary digits, to the nearest one and halfway to the even
one. It is off by half the place of the number's last digit at most (`abs_toSignificant_sub_le`).
The integers up to `2 ^ p` stay as they are (`toSignificant_intCast`), and the next one does not
(`toSignificant_two_pow_add_one`).
-/

namespace Rx7.Rounding

variable {K : Type*} [Field K] [LinearOrder K] [IsStrictOrderedRing K] [FloorRing K]

/-- The nearest integer; halfway between two, the even one. -/
def roundEven (x : K) : ℤ :=
  if 2 * Int.fract x = 1 ∧ ⌊x⌋ % 2 = 0 then ⌊x⌋ else round x

/-- The place of the last of `p` binary digits of a number. -/
def unit (p : ℕ) (x : K) : K := 2 ^ (Int.log 2 |x| + 1 - p)

/-- The nearest number of `p` binary digits. -/
def toSignificant (p : ℕ) (x : K) : K := roundEven (x / unit p x) * unit p x

theorem abs_sub_roundEven (x : K) : |x - roundEven x| ≤ 1 / 2 := by
  unfold roundEven
  split_ifs with h
  · have hfract : x - ⌊x⌋ = 1 / 2 := by
      rw [Int.self_sub_floor]
      linarith [h.1]
    rw [hfract, abs_of_pos (by norm_num)]
  · exact abs_sub_round x

theorem roundEven_eq_of_abs_sub_lt {x : K} {n : ℤ} (h : |x - n| < 1 / 2) : roundEven x = n := by
  have hclose := abs_sub_roundEven x
  have hlt : |((roundEven x - n : ℤ) : K)| < 1 := by
    have htriangle := abs_sub_le (roundEven x : K) x n
    rw [abs_sub_comm (roundEven x : K) x] at htriangle
    rw [Int.cast_sub]
    linarith
  rw [← Int.cast_abs, ← Int.cast_one, Int.cast_lt, Int.abs_lt_one_iff] at hlt
  omega

theorem roundEven_intCast (n : ℤ) : roundEven (n : K) = n :=
  roundEven_eq_of_abs_sub_lt (by simp)

theorem roundEven_add_half {n : ℤ} (hn : n % 2 = 0) : roundEven (n + 1 / 2 : K) = n := by
  have hfract : Int.fract (n + 1 / 2 : K) = 1 / 2 := by
    rw [Int.fract_intCast_add, Int.fract_eq_self]
    norm_num
  have hfloor : ⌊(n + 1 / 2 : K)⌋ = n := by
    rw [Int.floor_intCast_add, Int.floor_eq_zero_iff.2 (by norm_num), add_zero]
  rw [roundEven, hfract, hfloor, if_pos ⟨by norm_num, hn⟩]

theorem unit_pos (p : ℕ) (x : K) : 0 < unit p x := zpow_pos two_pos _

/-- Half a place is at most the number over `2 ^ p`. -/
theorem unit_le {p : ℕ} {x : K} (hx : x ≠ 0) : unit p x ≤ 2 * |x| / 2 ^ p := by
  have hlog := Int.zpow_log_le_self (b := 2) one_lt_two (abs_pos.2 hx)
  have h2 : (2 : K) ≠ 0 := two_ne_zero
  rw [unit, zpow_sub₀ h2, zpow_add₀ h2, zpow_one, zpow_natCast, mul_comm]
  push_cast at hlog
  gcongr

/-- **The error of rounding** is at most the number over `2 ^ p`. -/
theorem abs_toSignificant_sub_le (p : ℕ) (x : K) : |toSignificant p x - x| ≤ |x| / 2 ^ p := by
  by_cases hx : x = 0
  · subst hx
    have hzero : toSignificant p (0 : K) = 0 := by
      have hround : roundEven (0 : K) = 0 := by simpa using roundEven_intCast (K := K) 0
      rw [toSignificant, zero_div, hround, Int.cast_zero, zero_mul]
    rw [hzero]
    simp
  · have hunit := unit_pos p x
    have hscaled : toSignificant p x - x =
        (roundEven (x / unit p x) - x / unit p x) * unit p x := by
      rw [toSignificant, sub_mul, div_mul_cancel₀ _ hunit.ne']
    have hhalf := abs_sub_roundEven (x / unit p x)
    rw [abs_sub_comm] at hhalf
    calc |toSignificant p x - x|
        = |(roundEven (x / unit p x) : K) - x / unit p x| * unit p x := by
          rw [hscaled, abs_mul, abs_of_pos hunit]
      _ ≤ 1 / 2 * (2 * |x| / 2 ^ p) := by
          gcongr
          exact unit_le hx
      _ = |x| / 2 ^ p := by ring

/-- A multiple of the unit is its own rounding. -/
theorem toSignificant_eq_self {p : ℕ} {x : K} {m : ℤ} (h : x = m * unit p x) :
    toSignificant p x = x := by
  have hdiv : x / unit p x = m := by
    rw [div_eq_iff (unit_pos p x).ne']
    exact h
  rw [toSignificant, hdiv, roundEven_intCast, ← h]

theorem unit_intCast (p : ℕ) (n : ℤ) :
    unit p (n : K) = 2 ^ ((Nat.log 2 n.natAbs : ℤ) + 1 - p) := by
  have hnatAbs : |(n : K)| = (n.natAbs : K) := by
    rw [← Int.cast_abs, Int.abs_eq_natAbs, Int.cast_natCast]
  rw [unit, hnatAbs, Int.log_natCast]

/-- An integer of `p` binary digits at most is its own rounding. -/
theorem toSignificant_intCast {p : ℕ} (hp : 0 < p) {n : ℤ} (hn : |n| ≤ 2 ^ p) :
    toSignificant p (n : K) = n := by
  by_cases hzero : n = 0
  · exact toSignificant_eq_self (m := 0) (by simp [hzero])
  have hle : n.natAbs ≤ 2 ^ p := by
    rw [Int.abs_eq_natAbs] at hn
    exact_mod_cast hn
  rcases hle.lt_or_eq with hlt | heq
  · -- the last digit is behind the point
    have hlog : Nat.log 2 n.natAbs < p := Nat.log_lt_of_lt_pow (Int.natAbs_ne_zero.2 hzero) hlt
    obtain ⟨k, hk⟩ := Nat.exists_eq_add_of_lt hlog
    have hexponent : (Nat.log 2 n.natAbs : ℤ) + 1 - p = -(k : ℤ) := by omega
    refine toSignificant_eq_self (m := n * 2 ^ k) ?_
    rw [unit_intCast, hexponent, zpow_neg, zpow_natCast]
    push_cast
    field_simp
  · -- the number is the power itself, and the last digit that of twos
    have hlog : Nat.log 2 n.natAbs = p := by rw [heq, Nat.log_pow one_lt_two]
    have hexponent : (Nat.log 2 n.natAbs : ℤ) + 1 - p = 1 := by omega
    have heven : (2 : ℤ) ∣ n := by
      rw [← Int.natAbs_dvd_natAbs, heq]
      exact dvd_pow_self 2 hp.ne'
    obtain ⟨m, rfl⟩ := heven
    refine toSignificant_eq_self (m := m) ?_
    rw [unit_intCast, hexponent, zpow_one, Int.cast_mul, mul_comm, Int.cast_ofNat]

/-- The first integer that has more than `p` binary digits loses the last one. -/
theorem toSignificant_two_pow_add_one {p : ℕ} (hp : 2 ≤ p) :
    toSignificant p (((2 ^ p + 1 : ℤ)) : K) = 2 ^ p := by
  obtain ⟨q, rfl⟩ := Nat.exists_eq_add_of_le' hp
  have hnatAbs : (2 ^ (q + 2) + 1 : ℤ).natAbs = 2 ^ (q + 2) + 1 := by
    exact_mod_cast Int.natAbs_natCast (2 ^ (q + 2) + 1)
  have hlog : Nat.log 2 (2 ^ (q + 2) + 1) = q + 2 :=
    Nat.log_eq_of_pow_le_of_lt_pow (Nat.le_succ _) (by
      have hpos : 1 < 2 ^ (q + 2) := Nat.one_lt_two_pow (by omega)
      rw [pow_succ 2 (q + 2)]
      omega)
  have hunit : unit (q + 2) (((2 ^ (q + 2) + 1 : ℤ)) : K) = 2 := by
    rw [unit_intCast, hnatAbs, hlog, add_sub_cancel_left, zpow_one]
  have hhalf : ((2 ^ (q + 2) + 1 : ℤ) : K) / 2 = ((2 ^ (q + 1) : ℤ) : K) + 1 / 2 := by
    push_cast
    ring
  rw [toSignificant, hunit, hhalf, roundEven_add_half (by omega)]
  push_cast
  ring

/-- The rounding of an integer is an integer. -/
theorem exists_toSignificant_intCast {p : ℕ} (hp : 0 < p) (n : ℤ) :
    ∃ m : ℤ, toSignificant p (n : K) = m := by
  by_cases hn : |n| ≤ 2 ^ p
  · exact ⟨n, toSignificant_intCast hp hn⟩
  · have hlt : 2 ^ p < n.natAbs := by
      rw [not_le, Int.abs_eq_natAbs] at hn
      exact_mod_cast hn
    have hlog : p ≤ Nat.log 2 n.natAbs :=
      Nat.le_log_of_pow_le one_lt_two hlt.le
    obtain ⟨k, hk⟩ := Nat.exists_eq_add_of_le hlog
    have hexponent : (Nat.log 2 n.natAbs : ℤ) + 1 - p = (k + 1 : ℕ) := by
      push_cast
      omega
    refine ⟨roundEven ((n : K) / unit p (n : K)) * 2 ^ (k + 1), ?_⟩
    rw [toSignificant, unit_intCast, hexponent, zpow_natCast]
    push_cast
    rfl

end Rx7.Rounding
