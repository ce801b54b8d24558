import Rx7.Engine.StateManager

/-!
# The gauges

A gauge observes `current` and shows what its key reads there. The merge keeps the latest value of
every field (`current_run`), and the subscript reads the field of its key, but for one: the gauge of
`fuelPumpControl` shows the fuel correction. It shows its own quantity exactly where no packet
carried either (`gauge_shows_own_quantity_iff`).
-/

namespace Rx7

open Transition LastWrite EngineDataPoint

/-- What the observer of `EngineDataCollectionViewCellViewModel` reads for the gauge's key. -/
def EngineDataCollectionViewCellViewModel.item (key : EngineDataItem)
    (engineData : Option EngineDataPoint) : Option Value :=
  engineData.bind fun engineData => engineData.subscript key

namespace Telemetry

open EngineDataCollectionViewCellViewModel (item)

variable {s s' t : Telemetry} {events events' : List Event} {key : EngineDataItem}

/-- The values that the packets of a history carried for a field, oldest first. -/
def carried (key : EngineDataItem) (events : List Event) : List Value :=
  (points events).filterMap fun p => p.field key

/-- The value of a field that was carried last. -/
def carriedLast (key : EngineDataItem) (events : List Event) : Option Value :=
  latest ((points events).map fun p => p.field key)

theorem carriedLast_eq_getLast? (key : EngineDataItem) (events : List Event) :
    carriedLast key events = (carried key events).getLast? :=
  latest_map_eq_getLast? _ _

/-- What a gauge reads is the latest value of the field that its subscript names. -/
theorem item_run (h : Run (ofPartial step) {} events t) (hne : key ≠ .fuelPumpControl) :
    item key t.engine.current = carriedLast key events := by
  rw [carriedLast, ← (current_run h).2 key, item]
  exact congrArg _ (funext fun p => subscript_of_ne hne p)

theorem item_fuelPumpControl_run (h : Run (ofPartial step) {} events t) :
    item .fuelPumpControl t.engine.current = carriedLast .fuelCorrection events := by
  rw [carriedLast, ← (current_run h).2 .fuelCorrection, item]
  exact congrArg _ (funext subscript_fuelPumpControl)

/-- The fuel correction is a number and the control of the fuel pump a switch, so that they agree
only where neither was carried. -/
theorem carriedLast_fuelCorrection_eq_iff (events : List Event) :
    carriedLast .fuelCorrection events = carriedLast .fuelPumpControl events ↔
      ∀ p ∈ points events, p.field .fuelCorrection = none ∧ p.field .fuelPumpControl = none := by
  have hnone : ∀ key, carriedLast key events = none ↔ ∀ p ∈ points events, p.field key = none :=
    fun key => by rw [carriedLast, latest_eq_none_iff, List.forall_mem_map]
  have hint : ∀ v, carriedLast .fuelCorrection events = some v → ∃ n, v = .int n := by
    intro v hv
    obtain ⟨p, -, hp⟩ := List.mem_map.1 (mem_of_latest hv)
    obtain ⟨n, -, rfl⟩ := Option.map_eq_some_iff.1 hp
    exact ⟨n, rfl⟩
  have hbool : ∀ v, carriedLast .fuelPumpControl events = some v → ∃ b, v = .bool b := by
    intro v hv
    obtain ⟨p, -, hp⟩ := List.mem_map.1 (mem_of_latest hv)
    obtain ⟨b, -, rfl⟩ := Option.map_eq_some_iff.1 hp
    exact ⟨b, rfl⟩
  simp only [forall_and, ← hnone]
  refine ⟨fun h => ?_, fun ⟨hc, hp⟩ => hc.trans hp.symm⟩
  cases hv : carriedLast .fuelCorrection events with
  | none => exact ⟨rfl, h ▸ hv⟩
  | some v =>
    obtain ⟨n, rfl⟩ := hint v hv
    obtain ⟨b, hb⟩ := hbool _ (h ▸ hv)
    cases hb

/-- What a gauge reads is its own quantity, or the gauge is that of the fuel pump's control and
one of the two quantities was carried. -/
theorem item_eq_carriedLast_iff (h : Run (ofPartial step) {} events t) :
    item key t.engine.current = carriedLast key events ↔
      (key = .fuelPumpControl → ∀ p ∈ points events,
        p.field .fuelCorrection = none ∧ p.field .fuelPumpControl = none) := by
  by_cases hkey : key = .fuelPumpControl
  · subst hkey
    rw [item_fuelPumpControl_run h, carriedLast_fuelCorrection_eq_iff, forall_prop_of_true rfl]
  · exact iff_of_true (item_run h hkey) fun hk => (hkey hk).elim

/-- **When a gauge shows its own quantity.** Behind two runs whose packets carried the same values
of a field, the gauge of that field reads, in each, the value carried last, and the same value in
both, exactly where it is not the gauge of the fuel pump's control, or neither that nor the fuel
correction was carried. -/
theorem gauge_shows_own_quantity_iff (h : Run (ofPartial step) {} events s)
    (h' : Run (ofPartial step) {} events' s') (hsame : carried key events = carried key events') :
    (item key s.engine.current = carriedLast key events ∧
        item key s'.engine.current = carriedLast key events' ∧
        item key s.engine.current = item key s'.engine.current) ↔
      (key = .fuelPumpControl → ∀ p ∈ points events ++ points events',
        p.field .fuelCorrection = none ∧ p.field .fuelPumpControl = none) := by
  have hlast : carriedLast key events = carriedLast key events' := by
    rw [carriedLast_eq_getLast?, carriedLast_eq_getLast?, hsame]
  have hboth : (item key s.engine.current = carriedLast key events ∧
      item key s'.engine.current = carriedLast key events' ∧
      item key s.engine.current = item key s'.engine.current) ↔
      item key s.engine.current = carriedLast key events ∧
        item key s'.engine.current = carriedLast key events' :=
    ⟨fun ⟨hs, hs', _⟩ => ⟨hs, hs'⟩, fun ⟨hs, hs'⟩ => ⟨hs, hs', (hs.trans hlast).trans hs'.symm⟩⟩
  rw [hboth, item_eq_carriedLast_iff h, item_eq_carriedLast_iff h', ← forall_and]
  simp only [List.forall_mem_append]

/-- An advanced packet. -/
def advancedPacket : List Event :=
  [.received (some (.ofBytes (240 :: List.replicate 40 0) fun _ => 0))]

theorem gauge_shows_own_quantity_iff_advancedPacket :
    ∃ s, Run (ofPartial step) {} advancedPacket s ∧
      ((item .rpm s.engine.current = carriedLast .rpm advancedPacket ∧
          item .rpm s.engine.current = carriedLast .rpm advancedPacket ∧
          item .rpm s.engine.current = item .rpm s.engine.current) ↔
        (EngineDataItem.rpm = .fuelPumpControl →
          ∀ p ∈ points advancedPacket ++ points advancedPacket,
            p.field .fuelCorrection = none ∧ p.field .fuelPumpControl = none)) := by
  have hrun : Run (ofPartial step) {} advancedPacket _ := Run.of_foldlM rfl
  exact ⟨_, hrun, gauge_shows_own_quantity_iff hrun hrun rfl⟩

/-- The gauge of the fuel pump's control shows the fuel correction of an advanced packet, which
carries no control. -/
theorem gauge_shows_fuelCorrection :
    ∃ s, Run (ofPartial step) {} advancedPacket s ∧
      item .fuelPumpControl s.engine.current ≠ carriedLast .fuelPumpControl advancedPacket := by
  have hrun : Run (ofPartial step) {} advancedPacket _ := Run.of_foldlM rfl
  refine ⟨_, hrun, ?_⟩
  rw [item_fuelPumpControl_run hrun]
  decide

end Telemetry

end Rx7
