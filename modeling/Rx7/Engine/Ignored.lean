import Rx7.Engine.StateManager

/-!
# Ignored packets

A packet of two bytes or fewer, or of an unknown command, is not decoded: it becomes the empty
point, which goes through the latch, the lookup of a location and the merge like any other. The
merge takes its time from the newer point, whatever that has, and no location, so that both are
lost (`supercede_empty`); and where there was no current point, there is an empty one behind it.
Only the empty point that an ignored packet left behind is left as it was
(`ignored_packet_clean_iff`).
-/

namespace Rx7

open Transition Data

namespace EngineDataPoint

/-- A byte string that the decoder does not decode. -/
def Ignored (bytes : List UInt8) : Prop := bytes.length ≤ 2 ∨ commandOf bytes ∉ [218, 240, 222]

theorem fromData_of_ignored {bytes : List UInt8} (h : Ignored bytes) (beyond : ℕ → UInt8) :
    fromData (.ofBytes bytes beyond) = .ok {} := by
  by_cases hlen : bytes.length ≤ 2
  · exact fromData_of_length_le hlen
  · have hc := h.resolve_left hlen
    simp only [List.mem_cons, List.not_mem_nil, or_false, not_or] at hc
    rw [fromData_of_lt (not_le.1 hlen)]
    split
    · exact (hc.1 ‹_›).elim
    · exact (hc.2.1 ‹_›).elim
    · exact (hc.2.2 ‹_›).elim
    · rfl

/-- The empty point over another: all engine fields stay, and the time and the location go. -/
theorem supercede_empty (point : EngineDataPoint) :
    point.supercede {} = { point with time := none, location := none } := rfl

end EngineDataPoint

namespace Telemetry

open EngineDataPoint

variable {s t : Telemetry} {events : List Event} {e : Event} {bytes : List UInt8}
  {beyond : ℕ → UInt8}

/-- An ignored packet publishes the empty point, and raises no latch. -/
theorem step_of_ignored (h : Ignored bytes) (s : Telemetry) (beyond : ℕ → UInt8) :
    step s (.received (some (.ofBytes bytes beyond))) =
      some { s with engine := (s.engine.publish {}).1 } := by
  have hlatch : s.engine.latch {} = (s.engine, []) := if_neg (by simp)
  simp only [step, EngineDataStateManager.received, fromData_of_ignored h, bind, Except.bind,
    EngineDataStateManager.located, pure, Except.pure, hlatch]

/-- The empty point leaves the engine state as it was exactly where the current point has neither
a time nor a location. -/
theorem publish_empty_eq_iff (self : EngineDataStateManager) :
    (self.publish {}).1 = self ↔
      ∃ current, self.current = some current ∧ current.time = none ∧ current.location = none := by
  obtain ⟨current, didBeginDrive⟩ := self
  cases current with
  | none => simp [EngineDataStateManager.publish]
  | some current =>
    have heq : current.supercede {} = current ↔ current.time = none ∧ current.location = none := by
      rw [supercede_empty, EngineDataPoint.ext_iff]
      simp [eq_comm]
    simp [EngineDataStateManager.publish, heq]

/-- As long as all packets are ignored, the current point is the empty one. -/
theorem current_of_ignored (h : Run (ofPartial step) {} events t) (hne : points events ≠ [])
    (hall : ∀ p ∈ points events, p = {}) : t.engine.current = some {} := by
  induction h with
  | nil => exact (hne rfl).elim
  | @snoc events e s t h hs ih =>
    rw [points_concat] at hne hall
    rcases current_step hs with ⟨he, hc⟩ | ⟨p, q, he, hl, hc⟩
    · rw [he] at hne hall
      simp only [Option.toList_none, List.append_nil] at hne hall
      exact hc.trans (ih hne hall)
    · rw [he] at hall
      obtain rfl : p = {} := hall p (by simp)
      obtain rfl : {} = q := Except.ok.inj hl
      cases hcurrent : s.engine.current with
      | none => rw [hc, EngineDataStateManager.publish, hcurrent]
      | some current =>
        have hpoints : points events ≠ [] := (current_run h).1.1 (by rw [hcurrent]; rfl)
        have hempty := ih hpoints fun p hp => hall p (List.mem_append_left _ hp)
        rw [hc, EngineDataStateManager.publish, hempty]
        rfl

/-- The current point has a time, and its document is not stored at time 0 for want of one. -/
def HasTime (s : Telemetry) : Prop :=
  ∃ current time, s.engine.current = some current ∧ current.time = some time ∧
    ("timestamp", some (.double (time / 1000))) ∈ current.convertToFirestoreData

/-- **When an ignored packet leaves the state as it was.** Handled behind a run, it leaves the
engine state as it was, with a time once a packet had one, exactly where some packet came before it
and all that came were ignored, too. -/
theorem ignored_packet_clean_iff (h : Run (ofPartial step) {} events s) (hi : Ignored bytes) :
    (∃ t, step s (.received (some (.ofBytes bytes beyond))) = some t ∧ t.engine = s.engine ∧
        ((∃ p ∈ points events, p.time ≠ none) → t.HasTime)) ↔
      points events ≠ [] ∧ ∀ p ∈ points events, p = {} := by
  have hstep := step_of_ignored hi s beyond
  refine ⟨fun ⟨t, ht, hengine, htime⟩ => ?_, fun ⟨hne, hall⟩ => ?_⟩
  · obtain rfl := Option.some.inj (hstep.symm.trans ht)
    obtain ⟨current, hc, hnone, -⟩ := (publish_empty_eq_iff _).1 hengine
    refine ⟨(current_run h).1.1 (by rw [hc]; rfl), fun p hp => ?_⟩
    obtain ⟨e, -, he⟩ := List.mem_filterMap.1 hp
    refine (point_cases he).resolve_right fun hp' => ?_
    obtain ⟨current', time, hc', htime', -⟩ :=
      htime ⟨p, hp, Option.isSome_iff_ne_none.1 hp'.1⟩
    have hcurrent : (s.engine.publish {}).1.current = s.engine.current :=
      congrArg EngineDataStateManager.current hengine
    obtain rfl : current = current' := Option.some.inj ((hc.symm.trans hcurrent.symm).trans hc')
    rw [hnone] at htime'
    cases htime'
  · have hempty := current_of_ignored h hne hall
    refine ⟨_, hstep, (publish_empty_eq_iff _).2 ⟨{}, hempty, rfl, rfl⟩, ?_⟩
    rintro ⟨p, hp, htime⟩
    exact (htime (by rw [hall p hp])).elim

/-- A packet with a time. -/
def timedPacket : List Event :=
  [.received (some (.ofBytes (218 :: List.replicate 24 0) fun _ => 0))]

theorem ignored_packet_clean_iff_timedPacket :
    ∃ s, Run (ofPartial step) {} timedPacket s ∧
      ((∃ t, step s (.received (some (.ofBytes [1, 2] fun _ => 0))) = some t ∧
          t.engine = s.engine ∧ ((∃ p ∈ points timedPacket, p.time ≠ none) → t.HasTime)) ↔
        points timedPacket ≠ [] ∧ ∀ p ∈ points timedPacket, p = {}) := by
  have hrun : Run (ofPartial step) {} timedPacket _ := Run.of_foldlM rfl
  exact ⟨_, hrun, ignored_packet_clean_iff hrun (.inl (by decide))⟩

/-- Behind a packet with a time, one of two bytes takes the time away. -/
theorem time_lost_to_ignored_packet :
    ∃ s, Run (ofPartial step) {} timedPacket s ∧
      ¬ ∃ t, step s (.received (some (.ofBytes [1, 2] fun _ => 0))) = some t ∧
        t.engine = s.engine ∧ ((∃ p ∈ points timedPacket, p.time ≠ none) → t.HasTime) := by
  have htest : ((timedPacket.foldlM step {}).any fun s =>
      (s.engine.current.bind EngineDataPoint.time).isSome) = true := by decide
  obtain ⟨s, hrun, htime⟩ := Run.exists_of_foldlM htest
  refine ⟨s, hrun, fun ⟨t, ht, hengine, _⟩ => ?_⟩
  obtain rfl := Option.some.inj ((step_of_ignored (.inl (by decide)) s _).symm.trans ht)
  obtain ⟨current, hc, hnone, -⟩ := (publish_empty_eq_iff s.engine).1 hengine
  simp [hc, hnone] at htime

end Telemetry

end Rx7
