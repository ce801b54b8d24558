import Rx7.Engine.Decode

/-!
# Frames and the points they decode to

A `Frame` of a command has the bytes of its format and a time that fits, so it decodes. The slices
of a format, of the hand-written bounds, widths and signednesses of the decoder, tile the bytes of
the frame: each byte lies in one slice, and no two strings of a slice give one value. So frames
decode alike exactly when they agree (`decodes_faithfully`), but for two fields of bytes: a switch
only asks its byte whether it is 1, and the rpm of a basic frame has a reading of its own.
-/

namespace Rx7

open EngineDataPoint Data Set

/-- A frame of a command with at least the bytes of its format, and what lies behind it in
memory. -/
structure Frame (command length : ℕ) where
  bytes : List UInt8
  beyond : ℕ → UInt8
  length_ge : length ≤ bytes.length
  command_eq : commandOf bytes = command
  time_lt : timeOf bytes < 2 ^ 63

namespace EngineDataPoint

/-! ## The slices of the formats -/

variable {m m' : ℕ → UInt8}

theorem tenths_inj {a b : ℕ} : (a / 10 : ℚ) = b / 10 ↔ a = b := by
  rw [div_left_inj' (by decide), Nat.cast_inj]

theorem advancedPoint_eq_iff : advancedPoint m = advancedPoint m' ↔ EqOn m m' (Ico 2 41) := by
  rw [Tiling.eqOn_Ico_iff_isChain 2 41 [10, 12, 14, 16, 18, 20, 22, 23, 24, 25, 26, 27, 28, 29, 30,
    31, 33, 35, 37, 39, 41] (by decide) rfl]
  simp only [advancedPoint, EngineDataPoint.mk.injEq, Option.some.injEq, Int16.toInt_inj,
    Int8.toInt_inj, Nat.cast_inj, UInt8.toNat_inj, UInt16.toNat_inj, UInt64.toNat_inj,
    sub_left_inj, tenths_inj, loaded_eq_iff, Pointee.size, Nat.reduceAdd,
    List.isChain_cons_cons, List.isChain_singleton, and_true, true_and]
  -- The record lists its fields in another order than the frame.
  exact iff_of_eq (by ac_rfl)

theorem sensorPoint_eq_iff :
    sensorPoint m = sensorPoint m' ↔ EqOn m m' (Ico 2 26) ∧
      EqOn (fun i => (m i).toNat == 1) (fun i => (m' i).toNat == 1) (Ico 26 42) := by
  rw [Tiling.eqOn_Ico_iff_isChain 2 26 [10, 12, 14, 16, 18, 20, 22, 24, 26] (by decide) rfl,
    Tiling.eqOn_Ico_iff_isChain 26 42 [27, 28, 29, 30, 31, 32, 33, 34, 35, 36, 37, 38, 39, 40, 41,
      42] (by decide) rfl]
  simp only [sensorPoint, EngineDataPoint.mk.injEq, Option.some.injEq, Nat.cast_inj,
    UInt16.toNat_inj, UInt64.toNat_inj, tenths_inj, loaded_uint8, loaded_eq_iff, Pointee.size,
    Nat.reduceAdd, Tiling.eqOn_Ico_succ, List.isChain_cons_cons, List.isChain_singleton, and_true,
    true_and, and_assoc]

theorem basicPoint_eq_iff :
    { basicPoint m with rpm := none } = { basicPoint m' with rpm := none } ↔
      EqOn m m' (Ico 2 23) := by
  rw [Tiling.eqOn_Ico_iff_isChain 2 23 [10, 12, 13, 14, 16, 17, 18, 20, 21, 23] (by decide) rfl]
  simp only [basicPoint, EngineDataPoint.mk.injEq, Option.some.injEq, Int16.toInt_inj,
    Int8.toInt_inj, Nat.cast_inj, UInt8.toNat_inj, UInt16.toNat_inj, UInt64.toNat_inj,
    sub_left_inj, tenths_inj, loaded_eq_iff, Pointee.size, Nat.reduceAdd,
    List.isChain_cons_cons, List.isChain_singleton, and_true]

end EngineDataPoint

namespace Frame

variable {command length : ℕ} (f g : Frame command length)

def data : Data := .ofBytes f.bytes f.beyond

/-- The frames agree on a range of their bytes. -/
def AgreeOn (first last : ℕ) : Prop :=
  ∀ i, first ≤ i → i ≤ last → f.bytes[i]? = g.bytes[i]?

/-- The frames agree, on a range of their bytes, on whether the byte is 1. -/
def SwitchesAgreeOn (first last : ℕ) : Prop :=
  ∀ i, first ≤ i → i ≤ last → (f.bytes[i]? = some 1 ↔ g.bytes[i]? = some 1)

/-- A frame of a known command decodes to the point its storage spells. -/
theorem fromData_data {spelled : (ℕ → UInt8) → EngineDataPoint}
    (h : format command = some (length, spelled)) :
    fromData f.data = .ok (spelled f.data.storage) := by
  have hlen := f.length_ge
  have h10 := ten_le_of_format h
  refine (fromData_eq_ok_iff (by omega)).2 ?_
  rw [f.command_eq, h]
  exact ⟨hlen, (timeFits_ofBytes (by omega)).2 f.time_lt, rfl⟩

theorem getElem?_bytes {i : ℕ} (hi : i < length) : f.bytes[i]? = some (f.data.storage i) := by
  have hlen := f.length_ge
  rw [data, storage_ofBytes (by omega), List.getElem?_eq_getElem]

variable {f g}

theorem eqOn_iff {first last : ℕ} (h : last < length) :
    EqOn f.data.storage g.data.storage (Ico first (last + 1)) ↔ f.AgreeOn g first last := by
  refine Tiling.eqOn_Ico_succ_iff fun i hi => ?_
  rw [getElem?_bytes f (by omega), getElem?_bytes g (by omega), Option.some.injEq]

theorem eqOn_switch_iff {first last : ℕ} (h : last < length) :
    EqOn (fun i => (f.data.storage i).toNat == 1) (fun i => (g.data.storage i).toNat == 1)
      (Ico first (last + 1)) ↔ f.SwitchesAgreeOn g first last := by
  refine Tiling.eqOn_Ico_succ_iff fun i hi => ?_
  rw [getElem?_bytes f (by omega), getElem?_bytes g (by omega), Option.some.injEq,
    Option.some.injEq, ← UInt8.toNat_inj, ← UInt8.toNat_inj, Bool.eq_iff_iff, beq_iff_eq,
    beq_iff_eq, UInt8.toNat_one]

end Frame

/-- **Decoding is faithful.** Two advanced frames decode to one point exactly when they agree on
bytes 2 to 40; two sensor frames exactly when they agree on bytes 2 to 25 and on which of bytes
26 to 41 are 1; and the points of two basic frames are equal but for the rpm exactly when the
frames agree on bytes 2 to 22. -/
theorem decodes_faithfully :
    (∀ f g : Frame 240 41, ∃ p q, fromData f.data = .ok p ∧ fromData g.data = .ok q ∧
      (p = q ↔ f.AgreeOn g 2 40)) ∧
    (∀ f g : Frame 222 42, ∃ p q, fromData f.data = .ok p ∧ fromData g.data = .ok q ∧
      (p = q ↔ f.AgreeOn g 2 25 ∧ f.SwitchesAgreeOn g 26 41)) ∧
    ∀ f g : Frame 218 25, ∃ p q, fromData f.data = .ok p ∧ fromData g.data = .ok q ∧
      ({ p with rpm := none } = { q with rpm := none } ↔ f.AgreeOn g 2 22) := by
  refine ⟨fun f g => ⟨_, _, f.fromData_data rfl, g.fromData_data rfl, ?_⟩,
    fun f g => ⟨_, _, f.fromData_data rfl, g.fromData_data rfl, ?_⟩,
    fun f g => ⟨_, _, f.fromData_data rfl, g.fromData_data rfl, ?_⟩⟩
  · rw [advancedPoint_eq_iff, Frame.eqOn_iff (by omega)]
  · rw [sensorPoint_eq_iff, Frame.eqOn_iff (by omega), Frame.eqOn_switch_iff (by omega)]
  · rw [basicPoint_eq_iff, Frame.eqOn_iff (by omega)]

end Rx7
