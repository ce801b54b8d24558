import Rx7.Foundations.Rounding
import Mathlib.Data.List.TakeWhile
import Mathlib.Data.Rat.Floor

/-!
# The texts of numbers

A `Double` has 53 significant digits. One that is next to a tenth, as every voltage is, is denoted
by the tenth, and any other by the number that it is (`nearestDouble`). Interpolation writes a
`Double` with as many digits behind the point as tell it from the others (`describeDouble`), and
`Double(text)` reads a numeral as the `Double` next to it (`double`): an integer comes back rounded
(`double_toString_int`), a tenth as it was (`double_describeDouble`). `Int(value)` cuts a `Double`
off at the point, and traps where `Int` does not hold what is left. The exponents, infinities and
NaNs that Swift writes and reads beside are in no text here.
-/

namespace Rx7.Swift

open Rounding

/-- The `Double` next to a number. -/
def nearestDouble (value : ℚ) : ℚ :=
  let rounded := toSignificant 53 value
  let tenth : ℚ := roundEven (rounded * 10) / 10
  if toSignificant 53 tenth = rounded then tenth else rounded

/-- A numeral with its sign. -/
def signed (negative : Bool) (digits : List Char) : String :=
  .ofList (if negative then '-' :: digits else digits)

/-- How many digits behind the point tell a `Double` from the others. -/
def fractionDigits (value : ℚ) : ℕ :=
  ((List.range' 1 17).find? fun k =>
    nearestDouble (roundEven (value * 10 ^ k) / 10 ^ k) = value).getD 17

/-- `"\(value)"` of a `Double`. -/
def describeDouble (value : ℚ) : String :=
  let k := fractionDigits value
  let scaled := roundEven (value * 10 ^ k)
  signed (decide (scaled < 0)) (Nat.toDigits 10 (scaled.natAbs / 10 ^ k) ++
    '.' :: (Nat.toDigits 10 (scaled.natAbs % 10 ^ k)).leftpad k '0')

/-- The number of a sequence of digits. -/
def natural (digits : List Char) : Option ℕ :=
  if digits ≠ [] ∧ digits.all Char.isDigit then some (Nat.ofDigitChars 10 digits 0) else none

/-- The number that a numeral without a sign spells. -/
def unsigned (numeral : List Char) : Option ℚ :=
  match numeral.dropWhile (· ≠ '.') with
  | [] => do
    let whole ← natural numeral
    return whole
  | _ :: fraction => do
    let whole ← natural (numeral.takeWhile (· ≠ '.'))
    let part ← natural fraction
    return whole + part / 10 ^ fraction.length

/-- The number that a numeral spells. -/
def numeral (text : String) : Option ℚ :=
  if text.toList.head? = some '-' then (unsigned text.toList.tail).map fun value => -value
  else unsigned text.toList

/-- `Double(text)`. -/
def double (text : String) : Option ℚ := (numeral text).map nearestDouble

/-- `Int(value)`: the digits before the point. It traps where `Int` does not hold them. -/
def int (value : ℚ) : Option ℤ :=
  let whole := if value < 0 then ⌈value⌉ else ⌊value⌋
  if -2 ^ 63 ≤ whole ∧ whole < 2 ^ 63 then some whole else none

theorem isSome_int {value : ℚ} (hmin : -2 ^ 63 ≤ value) (hmax : value < 2 ^ 63) :
    (int value).isSome = true := by
  have hwhole : -2 ^ 63 ≤ (if value < 0 then ⌈value⌉ else ⌊value⌋) ∧
      (if value < 0 then ⌈value⌉ else ⌊value⌋) < 2 ^ 63 := by
    split_ifs with hneg
    · exact ⟨Int.cast_le.1 ((by exact_mod_cast hmin : _ ≤ value).trans (Int.le_ceil value)),
        (Int.ceil_le.2 (by exact_mod_cast hneg.le)).trans_lt (by norm_num)⟩
    · exact ⟨(by norm_num : (-2 ^ 63 : ℤ) ≤ 0).trans (Int.floor_nonneg.2 (not_lt.1 hneg)),
        Int.floor_lt.2 (by exact_mod_cast hmax)⟩
  rw [int, if_pos hwhole]
  rfl

/-! ## Doubles that are denoted exactly -/

/-- The `Double` next to an integer is an integer. -/
theorem nearestDouble_intCast (n : ℤ) : nearestDouble (n : ℚ) = toSignificant 53 (n : ℚ) := by
  obtain ⟨m, hm⟩ := exists_toSignificant_intCast (K := ℚ) (p := 53) (by decide) n
  have hround : roundEven ((m : ℚ) * 10) = m * 10 := by
    exact_mod_cast roundEven_intCast (K := ℚ) (m * 10)
  simp [nearestDouble, hm, hround]

theorem nearestDouble_eq_self {n : ℤ} (h : |n| ≤ 2 ^ 53) : nearestDouble (n : ℚ) = n := by
  rw [nearestDouble_intCast, toSignificant_intCast (by decide) h]

theorem nearestDouble_tenth {n : ℤ} (h : |n| < 2 ^ 52) : nearestDouble (n / 10 : ℚ) = n / 10 := by
  have hround : roundEven (toSignificant 53 (n / 10 : ℚ) * 10) = n := by
    refine roundEven_eq_of_abs_sub_lt ?_
    have herror := abs_toSignificant_sub_le 53 (n / 10 : ℚ)
    have hn : |(n : ℚ)| < 2 ^ 52 := by exact_mod_cast h
    have hscaled : toSignificant 53 (n / 10 : ℚ) * 10 - n =
        (toSignificant 53 (n / 10 : ℚ) - n / 10) * 10 := by ring
    rw [abs_div, abs_of_pos (by norm_num : (0 : ℚ) < 10)] at herror
    rw [hscaled, abs_mul, abs_of_pos (by norm_num : (0 : ℚ) < 10)]
    linarith
  simp only [nearestDouble, hround, if_true]

/-! ## Numerals -/

theorem natural_toDigits (n : ℕ) : natural (Nat.toDigits 10 n) = some n := by
  have hdigit : (Nat.toDigits 10 n).all Char.isDigit = true :=
    List.all_eq_true.2 fun c hc => Nat.isDigit_of_mem_toDigits (by decide) (by decide) hc
  rw [natural, if_pos ⟨Nat.toDigits_ne_nil, hdigit⟩, Nat.ofDigitChars_ten_toDigits]

theorem ne_of_mem_toDigits {n : ℕ} {c d : Char} (hd : d.isDigit = false)
    (h : c ∈ Nat.toDigits 10 n) : c ≠ d := by
  rintro rfl
  rw [Nat.isDigit_of_mem_toDigits (by decide) (by decide) h] at hd
  cases hd

theorem unsigned_toDigits (n : ℕ) : unsigned (Nat.toDigits 10 n) = some (n : ℚ) := by
  have hdrop : (Nat.toDigits 10 n).dropWhile (· ≠ '.') = [] :=
    List.dropWhile_eq_nil_iff.2 fun c hc => decide_eq_true (ne_of_mem_toDigits (by decide) hc)
  simp only [unsigned, hdrop, natural_toDigits]
  rfl

theorem unsigned_point (whole : ℕ) {part : ℕ} (h : part < 10) :
    unsigned (Nat.toDigits 10 whole ++ '.' :: Nat.toDigits 10 part) =
      some (whole + part / 10 : ℚ) := by
  have hne : ∀ c ∈ Nat.toDigits 10 whole, decide (c ≠ '.') = true := fun c hc =>
    decide_eq_true (ne_of_mem_toDigits (by decide) hc)
  have hdrop : (Nat.toDigits 10 whole ++ '.' :: Nat.toDigits 10 part).dropWhile (· ≠ '.') =
      '.' :: Nat.toDigits 10 part := by
    rw [List.dropWhile_append_of_pos hne, List.dropWhile_cons_of_neg (by decide)]
  have htake : (Nat.toDigits 10 whole ++ '.' :: Nat.toDigits 10 part).takeWhile (· ≠ '.') =
      Nat.toDigits 10 whole := by
    rw [List.takeWhile_append_of_pos hne, List.takeWhile_cons_of_neg (by decide), List.append_nil]
  have hlength : (Nat.toDigits 10 part).length = 1 := by
    rw [Nat.toDigits_of_lt_base h, List.length_singleton]
  simp only [unsigned, hdrop, htake, natural_toDigits, hlength, pow_one]
  rfl

theorem numeral_signed {negative : Bool} {digits : List Char} {value : ℚ}
    (hminus : digits.head? ≠ some '-') (h : unsigned digits = some value) :
    numeral (signed negative digits) = some (if negative then -value else value) := by
  cases negative with
  | false => simp [numeral, signed, hminus, h]
  | true => simp [numeral, signed, h]

theorem head?_toDigits_append (n : ℕ) (cs : List Char) :
    (Nat.toDigits 10 n ++ cs).head? ≠ some '-' := by
  rw [List.head?_append_of_ne_nil _ Nat.toDigits_ne_nil]
  exact fun h => ne_of_mem_toDigits (by decide) (List.mem_of_mem_head? h) rfl

/-! ## Texts read back -/

theorem toString_eq_signed (n : ℤ) :
    toString n = signed (decide (n < 0)) (Nat.toDigits 10 n.natAbs) := by
  rw [Int.toString_eq_repr]
  cases n with
  | ofNat n => exact Nat.repr_eq_ofList_toDigits
  | negSucc n =>
    have hneg : decide (Int.negSucc n < 0) = true := decide_eq_true (Int.negSucc_lt_zero n)
    rw [hneg, Int.repr, Nat.repr_eq_ofList_toDigits]
    show String.ofList ['-'] ++ String.ofList (Nat.toDigits 10 (n + 1)) =
      String.ofList (['-'] ++ Nat.toDigits 10 (n + 1))
    exact String.ofList_append.symm

theorem neg_natAbs (n : ℤ) :
    (if decide (n < 0) = true then -(n.natAbs : ℚ) else n.natAbs) = n := by
  simp only [decide_eq_true_eq]
  split_ifs with h
  · rw [← Int.cast_natCast, Int.natCast_natAbs, abs_of_neg h, Int.cast_neg, neg_neg]
  · rw [← Int.cast_natCast, Int.natCast_natAbs, abs_of_nonneg (not_lt.1 h)]

/-- The text of an integer is read as the `Double` next to it. -/
theorem double_toString_int (n : ℤ) : double (toString n) = some (nearestDouble n) := by
  have hminus : (Nat.toDigits 10 n.natAbs).head? ≠ some '-' := by
    simpa using head?_toDigits_append n.natAbs []
  rw [double, toString_eq_signed, numeral_signed hminus (unsigned_toDigits _), neg_natAbs,
    Option.map_some]

/-- One digit behind the point tells a tenth from the other numbers. -/
theorem fractionDigits_tenth {n : ℤ} (h : |n| < 2 ^ 52) : fractionDigits (n / 10 : ℚ) = 1 := by
  have hscaled : (n / 10 : ℚ) * 10 ^ 1 = n := by rw [pow_one, div_mul_cancel₀ _ (by decide)]
  have hfirst : nearestDouble (roundEven ((n / 10 : ℚ) * 10 ^ 1) / 10 ^ 1) = n / 10 := by
    rw [hscaled, roundEven_intCast, pow_one, nearestDouble_tenth h]
  rw [fractionDigits, List.range'_succ, List.find?_cons_of_pos (by simpa using hfirst),
    Option.getD_some]

/-- The text of a number in tenths is read as that number. -/
theorem double_describeDouble {value : ℚ} {n : ℤ} (h : |n| < 2 ^ 52) (hvalue : value = n / 10) :
    double (describeDouble value) = some value := by
  subst hvalue
  have hscaled : roundEven ((n / 10 : ℚ) * 10 ^ 1) = n := by
    rw [pow_one, div_mul_cancel₀ _ (by decide), roundEven_intCast]
  have hpart : n.natAbs % 10 < 10 := Nat.mod_lt _ (by decide)
  have hpad : (Nat.toDigits 10 (n.natAbs % 10)).leftpad 1 '0' =
      Nat.toDigits 10 (n.natAbs % 10) := by
    rw [Nat.toDigits_of_lt_base hpart]
    rfl
  have hwhole : ((n.natAbs / 10 : ℕ) + (n.natAbs % 10 : ℕ) / 10 : ℚ) = n.natAbs / 10 := by
    rw [eq_div_iff (by decide), add_mul, div_mul_cancel₀ _ (by decide)]
    exact_mod_cast Nat.div_add_mod' n.natAbs 10
  have hnumeral : numeral (describeDouble (n / 10)) = some (n / 10 : ℚ) := by
    rw [describeDouble, fractionDigits_tenth h, hscaled, pow_one, hpad,
      numeral_signed (head?_toDigits_append _ _) (unsigned_point _ hpart), hwhole, ← neg_natAbs n]
    split_ifs <;> simp [neg_div]
  rw [double, hnumeral, Option.map_some, nearestDouble_tenth h]

theorem double_toString_bool (b : Bool) : double (toString b) = none := by
  cases b <;> decide

end Rx7.Swift
