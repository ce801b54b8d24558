import Rx7.Engine.StateManager

/-!
# The current location

Each packet is located by its time: `fixes` lists, for every decoded packet of a history, the fix
that `findLocationForTime` returned for it, if any. The first packet is stored with its location.
Every later one goes through `supercede`, which has no line for the location, so that `current`
has none from then on (`location_run`). It is the latest fix exactly where there was but one
packet, or no fix at all (`current_location_eq_latest_iff`).
-/

namespace Rx7.Telemetry

open Transition LastWrite

/-- The location history behind an event. -/
def Event.gps (gps : GpsManager) : Event → GpsManager
  | .didUpdateLocations location now => gps.didUpdateLocations location now
  | .received _ => gps

/-- The fix that `findLocationForTime` returns for a point, if the point has a time. -/
def fixOf (gps : GpsManager) (point : EngineDataPoint) : Option CLLocationCoordinate2D :=
  point.time.bind fun time => (gps.findLocationForTime time).toOption.join

/-- The fixes for the decoded packets of a history, which begins with a location history. -/
def fixesFrom (gps : GpsManager) : List Event → List (Option CLLocationCoordinate2D)
  | [] => []
  | e :: events => (e.point.map (fixOf gps)).toList ++ fixesFrom (e.gps gps) events

/-- For each decoded packet of a history, oldest first, the fix found for it. -/
def fixes (events : List Event) : List (Option CLLocationCoordinate2D) := fixesFrom {} events

/-- The location of the current point. -/
def currentLocation (s : Telemetry) : Option CLLocationCoordinate2D :=
  s.engine.current.bind EngineDataPoint.location

theorem fixesFrom_concat (gps : GpsManager) (events : List Event) (e : Event) :
    fixesFrom gps (events ++ [e]) =
      fixesFrom gps events ++ (e.point.map (fixOf (events.foldl Event.gps gps))).toList := by
  induction events generalizing gps with
  | nil => simp [fixesFrom]
  | cons e' events ih => simp [fixesFrom, ih]

theorem fixes_concat (events : List Event) (e : Event) :
    fixes (events ++ [e]) =
      fixes events ++ (e.point.map (fixOf (events.foldl Event.gps {}))).toList :=
  fixesFrom_concat {} events e

theorem length_fixes (events : List Event) : (fixes events).length = (points events).length := by
  induction events using List.reverseRecOn with
  | nil => rfl
  | append_singleton events e ih =>
    rw [fixes_concat, points_concat, List.length_append, List.length_append, ih]
    cases e.point <;> rfl

section

variable {s t : Telemetry} {events : List Event} {e : Event}

theorem gps_step (h : step s e = some t) : t.gps = e.gps s.gps := by
  cases e with
  | didUpdateLocations location now => exact Option.some.inj h ▸ rfl
  | received data =>
    simp only [step] at h
    split at h
    · exact Option.some.inj h ▸ rfl
    · cases h

theorem gps_run (h : Run (ofPartial step) {} events t) : t.gps = events.foldl Event.gps {} := by
  induction h with
  | nil => rfl
  | snoc _ hs ih => rw [List.foldl_append, List.foldl_cons, List.foldl_nil, ← ih, gps_step hs]

/-- A point without a location is located at the fix found for it. -/
theorem location_located {gps : GpsManager} {p q : EngineDataPoint} (hp : p.location = none)
    (h : EngineDataStateManager.located gps p = .ok q) : q.location = fixOf gps p := by
  rcases EngineDataStateManager.located_cases h with ⟨ht, rfl⟩ | ⟨time, ht, ⟨hf, rfl⟩ |
    ⟨location, hf, rfl⟩⟩
  · rw [hp, fixOf, ht, Option.bind_none]
  · rw [hp, fixOf, ht, Option.bind_some, hf]
    rfl
  · rw [fixOf, ht, Option.bind_some, hf]
    rfl

theorem location_of_point {p : EngineDataPoint} (h : e.point = some p) : p.location = none := by
  rcases point_cases h with rfl | ht
  · rfl
  · exact ht.2

/-- The first packet leaves its fix as the current location, and every later one leaves none. -/
theorem location_run (h : Run (ofPartial step) {} events t) :
    t.currentLocation = if (points events).length ≤ 1 then latest (fixes events) else none := by
  induction h with
  | nil => rfl
  | @snoc events e s t h hs ih =>
    rcases current_step hs with ⟨he, hc⟩ | ⟨p, q, he, hl, hc⟩
    · rw [currentLocation, hc, points_concat, fixes_concat, he]
      simpa [currentLocation] using ih
    · have hq : q.location = fixOf s.gps p := location_located (location_of_point he) hl
      have hsome := (current_run h).1
      rw [currentLocation, hc, points_concat, fixes_concat, he, ← gps_run h]
      cases hcurrent : s.engine.current with
      | none =>
        have hnil : points events = [] := by simpa [hcurrent] using hsome
        have hfixes : fixes events = [] :=
          List.length_eq_zero_iff.1 (by rw [length_fixes, hnil]; rfl)
        simp [EngineDataStateManager.publish, hcurrent, hnil, hfixes, hq, latest]
      | some current =>
        have hlen : (points events).length ≠ 0 := fun h0 =>
          hsome.1 (by rw [hcurrent]; rfl) (List.length_eq_zero_iff.1 h0)
        have hlt : ¬ (points events ++ [p]).length ≤ 1 := by
          rw [List.length_append, List.length_singleton]
          omega
        rw [if_neg (by simpa using hlt)]
        simp [EngineDataStateManager.publish, hcurrent, EngineDataPoint.supercede]

/-- **When the current location follows the packets.** At the end of a run it is the latest fix
that was found for a packet exactly where one packet was decoded at most, or no fix was found. -/
theorem current_location_eq_latest_iff (h : Run (ofPartial step) {} events t) :
    t.currentLocation = latest (fixes events) ↔
      (points events).length ≤ 1 ∨ ∀ fix ∈ fixes events, fix = none := by
  rw [location_run h]
  by_cases hlen : (points events).length ≤ 1
  · simp [hlen]
  · rw [if_neg hlen, or_iff_right hlen, ← latest_eq_none_iff, eq_comm]

/-- A location fix between two packets of one time. -/
def locatedBetween : List Event :=
  [.received (some (.ofBytes (218 :: List.replicate 24 0) fun _ => 0)),
    .didUpdateLocations (some ⟨47, 8⟩) 0,
    .received (some (.ofBytes (218 :: List.replicate 24 0) fun _ => 0))]

/-- The second packet loses the location that it was found at. -/
theorem current_location_lost :
    ∃ t, Run (ofPartial step) {} locatedBetween t ∧
      t.currentLocation ≠ latest (fixes locatedBetween) := by
  have hrun : Run (ofPartial step) {} locatedBetween _ := Run.of_foldlM rfl
  refine ⟨_, hrun, fun h => ?_⟩
  have hfix : latest (fixes locatedBetween) = some ⟨47, 8⟩ := by decide
  rw [hfix] at h
  cases h

theorem current_location_eq_latest_iff_locatedBetween :
    ∃ t, Run (ofPartial step) {} locatedBetween t ∧
      (t.currentLocation = latest (fixes locatedBetween) ↔
        (points locatedBetween).length ≤ 1 ∨ ∀ fix ∈ fixes locatedBetween, fix = none) := by
  have hrun : Run (ofPartial step) {} locatedBetween _ := Run.of_foldlM rfl
  exact ⟨_, hrun, current_location_eq_latest_iff hrun⟩

end

end Rx7.Telemetry
