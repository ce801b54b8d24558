import Mathlib.Data.Nat.Digits.Defs

/-!
# Little-endian numbers

The number that a byte string spells, least significant byte first, and what decoding relies on:
its range, its splitting at a byte boundary, and that strings of one length spell one number
exactly when they are equal.
-/

namespace Rx7.LittleEndian

variable {bs cs : List UInt8}

/-- The number that the bytes spell, least significant byte first. -/
def ofBytes (bs : List UInt8) : ℕ := Nat.ofDigits 256 (bs.map UInt8.toNat)

@[simp] theorem ofBytes_nil : ofBytes [] = 0 := rfl

@[simp] theorem ofBytes_cons (b : UInt8) (bs : List UInt8) :
    ofBytes (b :: bs) = b.toNat + 256 * ofBytes bs := by
  simp [ofBytes, Nat.ofDigits_cons]

theorem ofBytes_append (bs cs : List UInt8) :
    ofBytes (bs ++ cs) = ofBytes bs + 256 ^ bs.length * ofBytes cs := by
  simp [ofBytes, Nat.ofDigits_append]

theorem ofBytes_lt (bs : List UInt8) : ofBytes bs < 256 ^ bs.length := by
  have h : ∀ x ∈ bs.map UInt8.toNat, x < 256 := by
    intro x hx
    obtain ⟨b, -, rfl⟩ := List.mem_map.1 hx
    exact b.toNat_lt
  simpa [ofBytes] using Nat.ofDigits_lt_base_pow_length (by omega) h

theorem ofBytes_eq_zero_iff : ofBytes bs = 0 ↔ ∀ b ∈ bs, b = 0 := by
  induction bs with
  | nil => simp
  | cons b bs ih =>
    rw [ofBytes_cons, List.forall_mem_cons, ← ih, ← UInt8.toNat_inj, UInt8.toNat_zero]
    omega

/-- Strings of one length spell one number exactly when they are equal. -/
theorem ofBytes_inj (h : bs.length = cs.length) : ofBytes bs = ofBytes cs ↔ bs = cs := by
  refine ⟨fun he => ?_, congrArg ofBytes⟩
  induction bs generalizing cs with
  | nil => exact (List.length_eq_zero_iff.1 h.symm).symm
  | cons b bs ih =>
    cases cs with
    | nil => cases h
    | cons c cs =>
      have hb := b.toNat_lt
      have hc := c.toNat_lt
      rw [ofBytes_cons, ofBytes_cons] at he
      have hhead : b = c := UInt8.toNat_inj.1 (by omega)
      rw [hhead, ih (Nat.succ_inj.1 h) (by omega)]

end Rx7.LittleEndian
