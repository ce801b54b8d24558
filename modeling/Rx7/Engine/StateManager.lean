import Rx7.Engine.Decode
import Rx7.Engine.Gps
import Rx7.Foundations.LastWrite

/-!
# The current engine state

`EngineDataStateManager` keeps the merged values of the packets received so far (`current`) and a
latch that a rotating engine sets (`didBeginDrive`). `received` is the closure it subscribes to
the engine characteristic: decode, look the location up, raise the latch, publish. What it sends
to its two observables comes out in order, as `Notification`s.

`Telemetry` runs it together with the `GpsManager` it asks for locations. Over every run each of
the 46 engine fields of `current` holds its latest value (`field_current_eq_latest`).
-/

namespace Rx7

open Transition LastWrite

structure EngineDataStateManager where
  current : Option EngineDataPoint := none
  didBeginDrive : Bool := false

namespace EngineDataStateManager

/-- What the manager sends to its observables. -/
inductive Notification
  | didBeginDrive (value : Bool)
  | current (value : Option EngineDataPoint)

/-- The location of a decoded point: the one found for its time, where it has a time and one is
found. -/
def located (gps : GpsManager) (newData : EngineDataPoint) : Except Trap EngineDataPoint := do
  match newData.time with
  | none => return newData
  | some time =>
    match ← gps.findLocationForTime time with
    | none => return newData
    | some location => return newData.addLocation location

variable (self : EngineDataStateManager)

/-- The latch: raised by the first point whose rpm is above 1. -/
def latch (newData : EngineDataPoint) : EngineDataStateManager × List Notification :=
  if !self.didBeginDrive && decide (newData.rpm.getD 0 > 1) then
    ({ self with didBeginDrive := true }, [.didBeginDrive true])
  else (self, [])

/-- Publish a point: over the current one, or as it is where there is none. -/
def publish (newData : EngineDataPoint) : EngineDataStateManager × List Notification :=
  let newPoint :=
    match self.current with
    | some currentData => currentData.supercede newData
    | none => newData
  ({ self with current := some newPoint }, [.current (some newPoint)])

/-- The closure that `subscribeToEngineData` gives to the Bluetooth manager. -/
def received (gps : GpsManager) (data : Option Data) :
    Except Trap (EngineDataStateManager × List Notification) := do
  match data with
  | none => return (self, [])
  | some data =>
    let newData ← located gps (← EngineDataPoint.fromData data)
    let (latched, begun) := self.latch newData
    let (published, sent) := latched.publish newData
    return (published, begun ++ sent)

variable {self} {gps : GpsManager} {p q : EngineDataPoint}

theorem located_cases (h : located gps p = .ok q) :
    (p.time = none ∧ q = p) ∨ ∃ time, p.time = some time ∧
      ((gps.findLocationForTime time = .ok none ∧ q = p) ∨
        ∃ location, gps.findLocationForTime time = .ok (some location) ∧
          q = p.addLocation location) := by
  unfold located at h
  cases ht : p.time with
  | none =>
    rw [ht] at h
    exact .inl ⟨rfl, (Except.ok.inj h).symm⟩
  | some time =>
    rw [ht] at h
    obtain ⟨found, hf, h⟩ := Trap.bind_eq_ok_iff.1 h
    refine .inr ⟨time, rfl, ?_⟩
    cases found with
    | none => exact .inl ⟨hf, (Except.ok.inj h).symm⟩
    | some location => exact .inr ⟨location, hf, (Except.ok.inj h).symm⟩

/-- The latch is raised where it was not and the rpm is above 1. -/
theorem latch_cases (self : EngineDataStateManager) (q : EngineDataPoint) :
    (self.didBeginDrive = false ∧ q.rpm.getD 0 > 1 ∧
      self.latch q = ({ self with didBeginDrive := true }, [.didBeginDrive true])) ∨
    ((q.rpm.getD 0 > 1 → self.didBeginDrive = true) ∧ self.latch q = (self, [])) := by
  unfold latch
  split_ifs with h
  · simp only [Bool.and_eq_true, Bool.not_eq_true', decide_eq_true_eq] at h
    exact .inl ⟨h.1, h.2, rfl⟩
  · refine .inr ⟨fun hrpm => ?_, rfl⟩
    by_contra hbegun
    exact h (by simp [hbegun, hrpm])

theorem didBeginDrive_publish (self : EngineDataStateManager) (q : EngineDataPoint) :
    (self.publish q).1.didBeginDrive = self.didBeginDrive := rfl

/-- A packet that decodes is located, latched and published. -/
theorem received_eq_ok_iff {data : Data} {r : EngineDataStateManager × List Notification} :
    self.received gps (some data) = .ok r ↔ ∃ p q, EngineDataPoint.fromData data = .ok p ∧
      located gps p = .ok q ∧
      (((self.latch q).1.publish q).1, (self.latch q).2 ++ ((self.latch q).1.publish q).2) = r := by
  simp only [received, Trap.bind_eq_ok_iff, pure, Except.pure, Except.ok.injEq, exists_and_left]

end EngineDataStateManager

/-! ## Runs -/

/-- The location history and the engine state that uses it. -/
structure Telemetry where
  gps : GpsManager := {}
  engine : EngineDataStateManager := {}

namespace Telemetry

/-- What the two managers react to. -/
inductive Event
  | didUpdateLocations (location : Option CLLocationCoordinate2D) (now : ℤ)
  | received (data : Option Data)

/-- One event; a trap leaves no state. -/
def step (s : Telemetry) : Event → Option Telemetry
  | .didUpdateLocations location now => some { s with gps := s.gps.didUpdateLocations location now }
  | .received data =>
    match s.engine.received s.gps data with
    | .ok (engine, _) => some { s with engine }
    | .error _ => none

/-- The point that an event's packet decodes to. -/
def Event.point : Event → Option EngineDataPoint
  | .received (some data) => (EngineDataPoint.fromData data).toOption
  | _ => none

/-- The decoded packets of a history, oldest first. -/
def points (events : List Event) : List EngineDataPoint := events.filterMap Event.point

@[simp] theorem points_concat (events : List Event) (e : Event) :
    points (events ++ [e]) = points events ++ e.point.toList := by
  cases he : e.point <;> simp [points, he]

variable {s t : Telemetry} {events : List Event} {e : Event}

theorem fromData_of_point {p : EngineDataPoint} (h : e.point = some p) :
    ∃ data, e = .received (some data) ∧ EngineDataPoint.fromData data = .ok p := by
  rcases e with ⟨location, now⟩ | _ | data
  · cases h
  · cases h
  · simp only [Event.point] at h
    cases hd : EngineDataPoint.fromData data with
    | error trap => simp [hd, Except.toOption] at h
    | ok point =>
      obtain rfl : point = p := by simpa [hd, Except.toOption] using h
      exact ⟨data, rfl, hd⟩

/-- A decoded packet is the empty point of an ignored one, or has a time. -/
theorem point_cases {p : EngineDataPoint} (h : e.point = some p) : p = {} ∨ p.Timed := by
  obtain ⟨data, -, hd⟩ := fromData_of_point h
  exact EngineDataPoint.eq_empty_or_timed hd

theorem field_addLocation (key : EngineDataItem) (point : EngineDataPoint)
    (location : CLLocationCoordinate2D) :
    (point.addLocation location).field key = point.field key := by
  cases key <;> rfl

/-- Looking a location up changes no engine field. -/
theorem field_located {gps : GpsManager} {p q : EngineDataPoint}
    (h : EngineDataStateManager.located gps p = .ok q) (key : EngineDataItem) :
    q.field key = p.field key := by
  rcases EngineDataStateManager.located_cases h with ⟨-, rfl⟩ | ⟨time, -, ⟨-, rfl⟩ |
    ⟨location, -, rfl⟩⟩
  · rfl
  · rfl
  · exact field_addLocation key p location

/-- What one event does to the current point: a decoded packet is published, located; everything
else leaves it. -/
theorem current_step (h : step s e = some t) :
    (e.point = none ∧ t.engine.current = s.engine.current) ∨
      ∃ p q, e.point = some p ∧ EngineDataStateManager.located s.gps p = .ok q ∧
        t.engine.current = (s.engine.publish q).1.current := by
  rcases e with ⟨location, now⟩ | data
  · left
    cases h
    exact ⟨rfl, rfl⟩
  · rcases data with _ | data
    · left
      cases h
      exact ⟨rfl, rfl⟩
    · right
      simp only [step] at h
      cases hr : s.engine.received s.gps (some data) with
      | error trap =>
        rw [hr] at h
        cases h
      | ok r =>
        rw [hr] at h
        obtain ⟨p, q, hd, hl, rfl⟩ := EngineDataStateManager.received_eq_ok_iff.1 hr
        cases h
        refine ⟨p, q, by simp [Event.point, hd, Except.toOption], hl, ?_⟩
        unfold EngineDataStateManager.latch EngineDataStateManager.publish
        split_ifs <;> rfl

/-- The fields of `current`, whether or not there is one. -/
theorem field_publish (self : EngineDataStateManager) (q : EngineDataPoint) (key : EngineDataItem) :
    ((self.publish q).1.current.bind fun p => p.field key) =
      (q.field key).or (self.current.bind fun p => p.field key) := by
  unfold EngineDataStateManager.publish
  cases hc : self.current with
  | none => simp
  | some c => simpa using EngineDataPoint.field_supercede key c q

/-- A decoded packet writes its fields to `current`, and nothing else does. -/
theorem field_step (h : step s e = some t) (key : EngineDataItem) :
    (t.engine.current.bind fun p => p.field key) =
      (e.point.map fun p => p.field key).join.or
        (s.engine.current.bind fun p => p.field key) := by
  rcases current_step h with ⟨he, hc⟩ | ⟨p, q, he, hl, hc⟩
  · rw [hc, he]
    rfl
  · rw [hc, he, field_publish, field_located hl key]
    rfl

/-- Over every run, `current` is there once a packet was decoded, and each of its fields holds its
latest value. -/
theorem current_run (h : Run (ofPartial step) {} events t) :
    (t.engine.current.isSome ↔ points events ≠ []) ∧
      ∀ key, (t.engine.current.bind fun p => p.field key) =
        latest ((points events).map fun p => p.field key) := by
  refine ⟨?_, fun key => ?_⟩
  · induction h with
    | nil => simp [points]
    | @snoc events e s t _ hs ih =>
      rcases current_step hs with ⟨he, hc⟩ | ⟨p, q, he, -, hc⟩
      · rw [hc, points_concat, he]
        simpa using ih
      · rw [hc, points_concat, he]
        simp [EngineDataStateManager.publish]
  · rw [points, List.map_filterMap]
    exact get_run (g := fun s : Telemetry => s.engine.current.bind fun p => p.field key)
      (fun _ _ _ hs => field_step hs key) rfl h

/-- **The current engine state is last-writer-wins in every field.** After any run with a decoded
packet, each engine field of `current` is that field of the most recent packet that carried it,
and `nil` exactly when no packet did. -/
theorem field_current_eq_latest (h : Run (ofPartial step) {} events t) (hne : points events ≠ []) :
    ∃ current, t.engine.current = some current ∧ ∀ key,
      current.field key = latest ((points events).map fun p => p.field key) ∧
        (current.field key = none ↔ ∀ p ∈ points events, p.field key = none) := by
  obtain ⟨hsome, hfield⟩ := current_run h
  obtain ⟨current, hc⟩ := Option.isSome_iff_exists.1 (hsome.2 hne)
  refine ⟨current, hc, fun key => ?_⟩
  have hkey : current.field key = latest ((points events).map fun p => p.field key) := by
    simpa [hc] using hfield key
  refine ⟨hkey, ?_⟩
  rw [hkey, latest_eq_none_iff, List.forall_mem_map]

/-- A basic and an advanced packet, with a location fix between them. -/
def twoPackets : List Event :=
  [.received (some (.ofBytes (218 :: List.replicate 24 0) fun _ => 0)),
    .didUpdateLocations (some ⟨47, 8⟩) 5,
    .received (some (.ofBytes (240 :: List.replicate 40 1) fun _ => 0))]

theorem field_current_eq_latest_twoPackets :
    ∃ t, Run (ofPartial step) {} twoPackets t ∧ ∃ current, t.engine.current = some current ∧
      ∀ key, current.field key = latest ((points twoPackets).map fun p => p.field key) ∧
        (current.field key = none ↔ ∀ p ∈ points twoPackets, p.field key = none) := by
  have hrun : Run (ofPartial step) {} twoPackets _ := Run.of_foldlM rfl
  exact ⟨_, hrun, field_current_eq_latest hrun (by decide)⟩

end Telemetry

end Rx7
