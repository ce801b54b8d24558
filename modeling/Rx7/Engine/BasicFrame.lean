import Rx7.Engine.Frame
import Rx7.Engine.StateManager

/-!
# The rpm of a basic frame

The basic format is the only one that reads its rpm with the type `Int`: eight bytes from offset
23 on, where the slice has two. The six bytes behind the rpm's own, in the frame or in memory
after it, become the upper digits of the number (`rpm_basicPoint_eq_iff`). The error reaches the
equality of frames and the latch that begins a drive; all three are right exactly where these six
bytes are zero (`reads_own_rpm_iff`).
-/

namespace Rx7

open EngineDataPoint Data

/-- A basic frame that decodes, with what lies behind it in memory. -/
abbrev BasicFrame := Frame 218 25

namespace BasicFrame

variable (f g : BasicFrame)

/-- The unsigned 16-bit number at offsets 23 and 24. -/
def rpmNumber : ℕ := LittleEndian.ofBytes ((f.bytes.drop 23).take 2)

/-- The six bytes behind the rpm, in the frame or after it, are zero. -/
def ZeroBehind : Prop := ∀ i, 25 ≤ i → i < 31 → f.data.storage i = 0

/-- The frame decodes, and its rpm is its own number. -/
def DecodesRpm : Prop := ∃ point, fromData f.data = .ok point ∧ point.rpm = some ↑f.rpmNumber

/-- The frame begins a drive only when its own number is above 1. -/
def BeginsDriveOnlyAbove : Prop :=
  ∀ (s t : EngineDataStateManager) (gps : GpsManager)
    (sent : List EngineDataStateManager.Notification),
    s.didBeginDrive = false → s.received gps (some f.data) = .ok (t, sent) →
      t.didBeginDrive = true → 1 < f.rpmNumber

theorem fromData_basic : fromData f.data = .ok (basicPoint f.data.storage) := f.fromData_data rfl

theorem rpmNumber_eq : f.rpmNumber = LittleEndian.ofBytes (window f.data.storage 23 2) := by
  have hlen := f.length_ge
  rw [rpmNumber, Frame.data, window_ofBytes (by omega)]

theorem rpmNumber_lt : f.rpmNumber < 65536 := by
  have h := LittleEndian.ofBytes_lt (window f.data.storage 23 2)
  rw [length_window] at h
  rw [rpmNumber_eq]
  omega

/-! ## The eight bytes that are read -/

/-- The number read at offset 23: the rpm's own two bytes are its lowest digits. -/
theorem rpm_basicPoint (m : ℕ → UInt8) :
    (basicPoint m).rpm = some ((((LittleEndian.ofBytes (window m 23 2) +
      65536 * LittleEndian.ofBytes (window m 25 6) : ℕ) : ℤ)).bmod (2 ^ 64)) := by
  change some (loaded Int64 m 23).toInt = _
  rw [toInt_loaded_int64, show 8 = 2 + 6 from rfl, window_add, LittleEndian.ofBytes_append]
  simp

theorem window_eq_zero_iff {m : ℕ → UInt8} {a n : ℕ} :
    LittleEndian.ofBytes (window m a n) = 0 ↔ ∀ i, a ≤ i → i < a + n → m i = 0 := by
  rw [LittleEndian.ofBytes_eq_zero_iff]
  simp only [window, List.forall_mem_map, List.mem_range]
  refine ⟨fun h i hi hi' => ?_, fun h i hi => h _ (by omega) (by omega)⟩
  have := h (i - a) (by omega)
  rwa [show a + (i - a) = i by omega] at this

/-- The decoded rpm is the frame's own number exactly when the six bytes behind it are zero. -/
theorem rpm_basicPoint_eq_iff :
    (basicPoint f.data.storage).rpm = some ↑f.rpmNumber ↔ f.ZeroBehind := by
  have hlo := f.rpmNumber_lt
  have hhi : LittleEndian.ofBytes (window f.data.storage 25 6) < 256 ^ 6 := by
    simpa only [length_window] using LittleEndian.ofBytes_lt (window f.data.storage 25 6)
  have hzero : f.ZeroBehind ↔ LittleEndian.ofBytes (window f.data.storage 25 6) = 0 :=
    (window_eq_zero_iff (m := f.data.storage) (a := 25) (n := 6)).symm
  rw [rpm_basicPoint, ← rpmNumber_eq, Option.some.injEq, hzero, Int.bmod_def]
  split_ifs <;> omega

/-- Frames that agree on bytes 2 to 24 decode to one point where their rpm does. -/
theorem basicPoint_congr {m m' : ℕ → UInt8} (h : ∀ i, 2 ≤ i → i < 23 → m i = m' i)
    (hrpm : (basicPoint m).rpm = (basicPoint m').rpm) : basicPoint m = basicPoint m' := by
  have hrest : { basicPoint m with rpm := none } = { basicPoint m' with rpm := none } :=
    basicPoint_eq_iff.2 fun i hi => h i hi.1 hi.2
  calc basicPoint m
      = { ({ basicPoint m with rpm := none } : EngineDataPoint) with rpm := (basicPoint m).rpm } :=
        rfl
    _ = { ({ basicPoint m' with rpm := none } : EngineDataPoint) with
          rpm := (basicPoint m').rpm } := by rw [hrest, hrpm]
    _ = basicPoint m' := rfl

/-! ## The latch -/

/-- A packet raises the latch exactly when its rpm is above 1. -/
theorem didBeginDrive_received {s t : EngineDataStateManager} {gps : GpsManager}
    {sent : List EngineDataStateManager.Notification} (hs : s.didBeginDrive = false)
    (h : s.received gps (some f.data) = .ok (t, sent)) :
    t.didBeginDrive = true ↔ 1 < (basicPoint f.data.storage).rpm.getD 0 := by
  obtain ⟨p, q, hd, hl, hr⟩ := EngineDataStateManager.received_eq_ok_iff.1 h
  obtain rfl := Except.ok.inj (f.fromData_basic.symm.trans hd)
  have hrpm : q.rpm = (basicPoint f.data.storage).rpm :=
    Option.map_injective (fun _ _ h => Value.int.inj h) (Telemetry.field_located hl .rpm)
  obtain rfl := congrArg Prod.fst hr
  unfold EngineDataStateManager.latch EngineDataStateManager.publish
  rw [hs, hrpm]
  by_cases hgt : (basicPoint f.data.storage).rpm.getD 0 > 1 <;> simp [hgt, hs]

/-- **Exactly when basic frames read their own rpm.** For two basic frames that agree on bytes 2 to
24: both decode the unsigned number at offsets 23 and 24 as their rpm, they decode to the same
point, and they begin a drive only where that number is above 1, if and only if the six bytes
behind the rpm are zero in both. -/
theorem reads_own_rpm_iff (h : ∀ i, 2 ≤ i → i < 25 → f.data.storage i = g.data.storage i) :
    (f.DecodesRpm ∧ g.DecodesRpm ∧ fromData f.data = fromData g.data ∧
        f.BeginsDriveOnlyAbove ∧ g.BeginsDriveOnlyAbove) ↔ f.ZeroBehind ∧ g.ZeroBehind := by
  have hdec : ∀ f : BasicFrame, f.DecodesRpm ↔ f.ZeroBehind := by
    intro f
    rw [← rpm_basicPoint_eq_iff, DecodesRpm, fromData_basic]
    simp
  have hbegin : ∀ f : BasicFrame, f.ZeroBehind → f.BeginsDriveOnlyAbove := by
    intro f hz s t gps sent hs hr ht
    have hgt := (f.didBeginDrive_received hs hr).1 ht
    rw [f.rpm_basicPoint_eq_iff.2 hz, Option.getD_some] at hgt
    exact_mod_cast hgt
  rw [hdec, hdec]
  refine ⟨fun h => ⟨h.1, h.2.1⟩, fun ⟨hf, hg⟩ => ⟨hf, hg, ?_, hbegin f hf, hbegin g hg⟩⟩
  have hn : f.rpmNumber = g.rpmNumber := by
    rw [rpmNumber_eq, rpmNumber_eq, window_eq_iff.2 fun i hi hi' => h i (by omega) (by omega)]
  rw [fromData_basic, fromData_basic]
  refine congrArg _ (basicPoint_congr (fun i hi hi' => h i hi (by omega)) ?_)
  rw [f.rpm_basicPoint_eq_iff.2 hf, g.rpm_basicPoint_eq_iff.2 hg, hn]

/-- A basic frame of a stopped engine: 25 bytes, all zero but the command, and what follows them. -/
def stopped (tail : List UInt8) : BasicFrame where
  bytes := 218 :: List.replicate 24 0 ++ tail
  beyond := fun _ => 0
  length_ge := by simp
  command_eq := rfl
  time_lt := by simp [timeOf]

theorem stopped_agree (tail tail' : List UInt8) :
    ∀ i, 2 ≤ i → i < 25 → (stopped tail).data.storage i = (stopped tail').data.storage i := by
  intro i _ hi
  have hl : ∀ tail, i < (stopped tail).bytes.length := fun tail => by
    simp [stopped]
    omega
  have he : ∀ tail, (stopped tail).data.storage i = (218 :: List.replicate 24 0)[i] := by
    intro tail
    rw [Frame.data, storage_ofBytes (hl tail)]
    exact List.getElem_append_left _
  rw [he, he]

/-- Two stopped frames, one of them longer, decode alike and begin no drive. -/
theorem reads_own_rpm_stopped :
    (stopped []).DecodesRpm ∧ (stopped [0, 0, 0, 0, 0, 0, 7]).DecodesRpm ∧
      fromData (stopped []).data = fromData (stopped [0, 0, 0, 0, 0, 0, 7]).data ∧
      (stopped []).BeginsDriveOnlyAbove ∧ (stopped [0, 0, 0, 0, 0, 0, 7]).BeginsDriveOnlyAbove :=
  (reads_own_rpm_iff (stopped []) (stopped [0, 0, 0, 0, 0, 0, 7]) (stopped_agree _ _)).2
    ⟨by unfold ZeroBehind; decide, by unfold ZeroBehind; decide⟩

/-- A byte behind the frame of a stopped engine makes it run at 65536 rpm. -/
theorem misreads_rpm_of_byte_behind :
    ¬ ∀ f g : BasicFrame, (∀ i, 2 ≤ i → i < 25 → f.data.storage i = g.data.storage i) →
      f.DecodesRpm ∧ g.DecodesRpm ∧ fromData f.data = fromData g.data ∧
        f.BeginsDriveOnlyAbove ∧ g.BeginsDriveOnlyAbove := by
  intro h
  obtain ⟨⟨point, hp, hrpm⟩, -⟩ := h (stopped [1, 0, 0, 0, 0, 0]) (stopped []) (stopped_agree _ _)
  rw [fromData_basic] at hp
  cases hp
  have h65536 : (basicPoint (stopped [1, 0, 0, 0, 0, 0]).data.storage).rpm = some 65536 := by rfl
  have h0 : (stopped [1, 0, 0, 0, 0, 0]).rpmNumber = 0 := by rfl
  rw [h65536, h0] at hrpm
  cases hrpm

end BasicFrame

end Rx7
