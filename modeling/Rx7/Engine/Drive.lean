import Rx7.Engine.StateManager
import Rx7.Foundations.Replay
import Mathlib.Logic.Function.Iterate

/-!
# Recording a drive

`RemoteDatabaseManager` observes the latch that a rotating engine sets. When it is raised, a drive
document is created, and the current engine state is observed: each value becomes a data point of
the drive. An observable hands its present value to a new observer, and calls its observers when it
is sent a value; so what an observer does happens in the middle of the closure that handles a
packet, between its latch and its publication (`Recording.step`).

The latch is raised before the packet is published. A drive that begins under the eyes of the
manager records therefore the point published before it, if there is one
(`drive_records_own_data_iff`).
-/

namespace Rx7

open Transition Replay

/-! ## The manager -/

/-- What a field of a stored document holds. -/
inductive FirestoreValue
  | string (value : String)
  | date (milliseconds : ℤ)
  | bool (value : Bool)

structure Drive where
  code : String
  isLive : Bool := true
  start : ℤ
  end_ : Option ℤ := none

/-- `convertToFirestoreData` of a drive. -/
def Drive.convertToFirestoreData (self : Drive) : List (String × Option FirestoreValue) :=
  [("code", some (.string self.code)), ("start", some (.date self.start)),
    ("end", self.end_.map .date), ("isLive", some (.bool self.isLive))]

/-- A document of the collection of drives, with the collection of its data points. -/
structure DriveDocument where
  data : List (String × Option FirestoreValue)
  datapoints : List (List (String × Option EngineDataPoint.Value)) := []

def DriveDocument.addDocument (document : DriveDocument)
    (data : List (String × Option EngineDataPoint.Value)) : DriveDocument :=
  { document with datapoints := document.datapoints ++ [data] }

/-- The manager, with what it observes and the collection of drives. -/
structure RemoteDatabaseManager where
  drive : Option Drive := none
  /-- The index of the drive's document. -/
  driveDatabaseRef : Option ℕ := none
  drives : List DriveDocument := []
  /-- Whether `didBeginDrive` is observed. -/
  observesDriveBeginning : Bool := false
  /-- How often `current` is observed. -/
  engineDataObservers : ℕ := 0

namespace RemoteDatabaseManager

-- `code n` and `start n` are what the generator of random strings and the clock give drive `n`.
variable (code : ℕ → String) (start : ℕ → ℤ) (engine : EngineDataStateManager)
  (self : RemoteDatabaseManager)

def createDrive : RemoteDatabaseManager :=
  let drive : Drive := { code := code self.drives.length, start := start self.drives.length }
  { self with
    drive := some drive
    driveDatabaseRef := some self.drives.length
    drives := self.drives ++ [{ data := drive.convertToFirestoreData }] }

/-- The observer of `current`. -/
def observeCurrent (engineDataPoint : Option EngineDataPoint) : RemoteDatabaseManager :=
  match engineDataPoint, self.driveDatabaseRef with
  | some engineDataPoint, some driveRef => { self with
      drives := self.drives.modify driveRef fun document =>
        document.addDocument engineDataPoint.convertToFirestoreData }
  | _, _ => self

def subscribeToEngineData : RemoteDatabaseManager :=
  { self with engineDataObservers := self.engineDataObservers + 1 }.observeCurrent engine.current

def didBeginDriveClosure (didBegin : Bool) : RemoteDatabaseManager :=
  if didBegin then (self.createDrive code start).subscribeToEngineData engine else self

def subscribeToDriveBeginning : RemoteDatabaseManager :=
  if engine.didBeginDrive then self.didBeginDriveClosure code start engine true
  else { self with observesDriveBeginning := true }.didBeginDriveClosure code start engine
    engine.didBeginDrive

/-- What the manager's observers do with what the engine's observables are sent. -/
def notified : EngineDataStateManager.Notification → RemoteDatabaseManager
  | .didBeginDrive didBegin =>
    if self.observesDriveBeginning then self.didBeginDriveClosure code start engine didBegin
    else self
  | .current engineDataPoint => (observeCurrent · engineDataPoint)^[self.engineDataObservers] self

/-- The manager has one drive and observes `current` once; the drive's data points are `points`. -/
structure Records (points : List EngineDataPoint) : Prop where
  driveDatabaseRef : self.driveDatabaseRef = some 0
  engineDataObservers : self.engineDataObservers = 1
  drives : ∃ data, self.drives = [⟨data, points.map EngineDataPoint.convertToFirestoreData⟩]

variable {code start engine self}

/-- A drive begins: its first data point is the present value, if there is one. -/
theorem records_didBeginDriveClosure (hdrives : self.drives = [])
    (hobservers : self.engineDataObservers = 0) :
    (self.didBeginDriveClosure code start engine true).Records engine.current.toList := by
  simp only [didBeginDriveClosure, if_true, subscribeToEngineData, createDrive, hdrives, hobservers,
    observeCurrent]
  cases engine.current with
  | none => exact ⟨rfl, rfl, _, rfl⟩
  | some point => exact ⟨rfl, rfl, _, rfl⟩

/-- A value that `current` is sent becomes the next data point. -/
theorem Records.notified {points : List EngineDataPoint} (h : self.Records points)
    (point : EngineDataPoint) :
    (self.notified code start engine (.current (some point))).Records (points ++ [point]) := by
  obtain ⟨href, hobservers, data, hdrives⟩ := h
  have hone : self.notified code start engine (.current (some point)) =
      { self with drives := self.drives.modify 0 fun document =>
          document.addDocument point.convertToFirestoreData } := by
    simp only [RemoteDatabaseManager.notified, hobservers, Function.iterate_one, observeCurrent,
      href]
  rw [hone]
  refine ⟨href, hobservers, data, ?_⟩
  rw [List.map_append]
  simp only [hdrives]
  rfl

end RemoteDatabaseManager

/-! ## The system -/

/-- The telemetry with the manager, once it is created. A packet is handled in two steps: behind
the first, it is latched and has still to be published. -/
structure Recording where
  telemetry : Telemetry := {}
  publishing : Option EngineDataPoint := none
  remote : Option RemoteDatabaseManager := none
  /-- The values that `current` was sent. -/
  published : List EngineDataPoint := []
  /-- How many of them when the first packet came whose rpm is above 1. -/
  begunAt : Option ℕ := none
  /-- How many of them when the manager was created. -/
  createdAt : Option ℕ := none

namespace Recording

inductive Event
  | didUpdateLocations (location : Option CLLocationCoordinate2D) (now : ℤ)
  | received (data : Option Data)
  | publish
  | create

/-- The event as one of the telemetry. -/
def Event.telemetry : Event → Option Telemetry.Event
  | .didUpdateLocations location now => some (.didUpdateLocations location now)
  | .received data => some (.received data)
  | _ => none

/-- The decoded rpm that begins a drive. -/
def Begins (point : EngineDataPoint) : Prop := point.rpm.getD 0 > 1

instance (point : EngineDataPoint) : Decidable (Begins point) :=
  inferInstanceAs (Decidable (point.rpm.getD 0 > 1))

variable (code : ℕ → String) (start : ℕ → ℤ)

/-- The engine's observables were sent values: the observers are called. -/
def notify (s : Recording) (sent : List EngineDataStateManager.Notification) : Recording :=
  { s with remote := s.remote.map fun remote =>
      sent.foldl (fun remote n => remote.notified code start s.telemetry.engine n) remote }

/-- The closure that handles a packet, up to its latch. -/
def latch (s : Recording) (newData : EngineDataPoint) : Recording :=
  let (engine, sent) := s.telemetry.engine.latch newData
  notify code start { s with
    telemetry := { s.telemetry with engine }
    publishing := some newData
    begunAt := s.begunAt.or (if Begins newData then some s.published.length else none) } sent

/-- The rest of the closure. -/
def publish (s : Recording) (newData : EngineDataPoint) : Recording :=
  let (engine, sent) := s.telemetry.engine.publish newData
  notify code start { s with
    telemetry := { s.telemetry with engine }
    publishing := none
    published := s.published ++ engine.current.toList } sent

/-- The manager is created, at any moment, once. -/
def create (s : Recording) : Recording :=
  { s with
    remote := some ((RemoteDatabaseManager.subscribeToDriveBeginning code start
      s.telemetry.engine {}))
    createdAt := some s.published.length }

/-- One event; a trap leaves no state. -/
def step (s : Recording) : Event → Option Recording
  | .didUpdateLocations location now =>
    match s.publishing with
    | some _ => none
    | none => some { s with telemetry := { s.telemetry with
        gps := s.telemetry.gps.didUpdateLocations location now } }
  | .received data =>
    match s.publishing, data with
    | some _, _ => none
    | none, none => some s
    | none, some data =>
      match EngineDataPoint.fromData data >>= EngineDataStateManager.located s.telemetry.gps with
      | .ok newData => some (s.latch code start newData)
      | .error _ => none
  | .publish => s.publishing.map (s.publish code start)
  | .create => if s.createdAt.isSome then none else some (s.create code start)

section

variable {code start} {s t u : Recording} {e : Event}

/-- **What a step can do.** -/
theorem step_cases (h : s.step code start e = some t) :
    (∃ location now, e = .didUpdateLocations location now ∧ t = { s with telemetry :=
      { s.telemetry with gps := s.telemetry.gps.didUpdateLocations location now } }) ∨
    (e = .received none ∧ t = s) ∨
    (∃ data newData, e = .received (some data) ∧
      EngineDataPoint.fromData data >>= EngineDataStateManager.located s.telemetry.gps =
        .ok newData ∧ t = s.latch code start newData) ∨
    (∃ newData, e = .publish ∧ s.publishing = some newData ∧
      t = s.publish code start newData) ∨
    (e = .create ∧ s.createdAt = none ∧ t = s.create code start) := by
  cases e with
  | didUpdateLocations location now =>
    cases hp : s.publishing with
    | some newData =>
      simp only [step, hp] at h
      cases h
    | none =>
      simp only [step, hp] at h
      exact .inl ⟨location, now, rfl, (Option.some.inj h).symm⟩
  | received data =>
    cases hp : s.publishing with
    | some newData =>
      simp only [step, hp] at h
      cases h
    | none =>
      cases data with
      | none =>
        simp only [step, hp] at h
        exact .inr (.inl ⟨rfl, (Option.some.inj h).symm⟩)
      | some data =>
        cases hd : EngineDataPoint.fromData data >>=
            EngineDataStateManager.located s.telemetry.gps with
        | error trap =>
          simp only [step, hp, hd] at h
          cases h
        | ok newData =>
          simp only [step, hp, hd] at h
          exact .inr (.inr (.inl ⟨data, newData, rfl, hd, (Option.some.inj h).symm⟩))
  | publish =>
    obtain ⟨newData, hp, rfl⟩ := Option.map_eq_some_iff.1 h
    exact .inr (.inr (.inr (.inl ⟨newData, rfl, hp, rfl⟩)))
  | create =>
    simp only [step] at h
    split_ifs at h with hc
    exact .inr (.inr (.inr (.inr ⟨rfl, by simpa using hc, (Option.some.inj h).symm⟩)))

/-- **The two steps of the closure handle a packet** as the engine state manager does. -/
theorem telemetry_received {data : Data} (h : s.step code start (.received (some data)) = some t)
    (h' : t.step code start .publish = some u) :
    Telemetry.step s.telemetry (.received (some data)) = some u.telemetry := by
  rcases step_cases h with ⟨_, _, he, -⟩ | ⟨he, -⟩ | ⟨data', newData, he, hnew, rfl⟩ | ⟨_, he, -⟩ |
    ⟨he, -⟩
  case inr.inr.inl =>
    obtain rfl := Option.some.inj (Event.received.inj he)
    obtain rfl : (s.latch code start newData).publish code start newData = u := Option.some.inj h'
    obtain ⟨point, hd, hl⟩ := Trap.bind_eq_ok_iff.1 hnew
    have hreceived : s.telemetry.engine.received s.telemetry.gps (some data) = .ok _ :=
      EngineDataStateManager.received_eq_ok_iff.2 ⟨point, newData, hd, hl, rfl⟩
    simp only [Telemetry.step, hreceived]
    rfl
  all_goals cases he

/-! ### What is recorded -/

/-- The manager by when it was created and when the drive began: it waits for the second, or has
recorded what an observer of `current` heard that joined at the later of the two moments. -/
def Remote (published : List EngineDataPoint) (remote : Option RemoteDatabaseManager) :
    Option ℕ → Option ℕ → Prop
  | none, _ => remote = none
  | some _, none => remote = some { observesDriveBeginning := true }
  | some c, some b => ∃ m ∈ remote, m.Records (heard published (max b c))

structure Tracked (s : Recording) : Prop where
  current : s.telemetry.engine.current = s.published.getLast?
  didBeginDrive : s.telemetry.engine.didBeginDrive = s.begunAt.isSome
  begunAt_le : ∀ b ∈ s.begunAt, b ≤ s.published.length
  createdAt_le : ∀ c ∈ s.createdAt, c ≤ s.published.length
  remote : Remote s.published s.remote s.createdAt s.begunAt

theorem tracked_init : Tracked {} := ⟨rfl, rfl, by simp, by simp, rfl⟩

/-- The latch is sent once: by the packet that begins the drive. -/
theorem latch_engine (hs : s.Tracked) (newData : EngineDataPoint) :
    (s.begunAt = none ∧ Begins newData ∧ s.telemetry.engine.latch newData =
      ({ s.telemetry.engine with didBeginDrive := true }, [.didBeginDrive true])) ∨
    (s.begunAt.or (if Begins newData then some s.published.length else none) = s.begunAt ∧
      s.telemetry.engine.latch newData = (s.telemetry.engine, [])) := by
  unfold EngineDataStateManager.latch
  rw [hs.didBeginDrive]
  cases hb : s.begunAt with
  | some b => exact .inr ⟨rfl, rfl⟩
  | none =>
    by_cases hrpm : Begins newData
    · exact .inl ⟨rfl, hrpm, if_pos (by simpa [Begins] using hrpm)⟩
    · exact .inr ⟨by rw [if_neg hrpm]; rfl, if_neg (by simpa [Begins] using hrpm)⟩

theorem Tracked.latch (hs : s.Tracked) (newData : EngineDataPoint) :
    (s.latch code start newData).Tracked := by
  rcases latch_engine hs newData with ⟨hb, hrpm, hlatch⟩ | ⟨hb, hlatch⟩
  · simp only [Recording.latch, hlatch, hb, hrpm, if_true, Option.none_or]
    have hremote := hs.remote
    refine ⟨hs.current, rfl, by simp [notify], hs.createdAt_le, ?_⟩
    rw [hb] at hremote
    change Remote s.published _ s.createdAt (some s.published.length)
    cases hc : s.createdAt with
    | none =>
      rw [hc] at hremote
      exact congrArg (Option.map _) hremote
    | some c =>
      rw [hc] at hremote
      obtain hremote : s.remote = some { observesDriveBeginning := true } := hremote
      have hle : c ≤ s.published.length := hs.createdAt_le c hc
      refine ⟨_, by rw [notify, hremote]; rfl, ?_⟩
      rw [max_eq_left hle, heard_join, ← hs.current]
      exact RemoteDatabaseManager.records_didBeginDriveClosure rfl rfl
  · simp only [Recording.latch, hlatch, hb]
    refine ⟨hs.current, hs.didBeginDrive, hs.begunAt_le, hs.createdAt_le, ?_⟩
    change Remote s.published (s.remote.map fun m => m) s.createdAt s.begunAt
    rw [Option.map_id']
    exact hs.remote

theorem Tracked.publish (hs : s.Tracked) (newData : EngineDataPoint) :
    (s.publish code start newData).Tracked := by
  obtain ⟨engine, point, hpublish, hcurrent, hbegun⟩ : ∃ engine point,
      s.telemetry.engine.publish newData = (engine, [.current (some point)]) ∧
      engine.current = some point ∧ engine.didBeginDrive = s.telemetry.engine.didBeginDrive :=
    ⟨_, _, rfl, rfl, rfl⟩
  have hlength : (s.published ++ [point]).length = s.published.length + 1 := by simp
  have ht : s.publish code start newData = notify code start { s with
      telemetry := { s.telemetry with engine }
      publishing := none
      published := s.published ++ [point] } [.current (some point)] := by
    simp only [Recording.publish, hpublish, hcurrent, Option.toList_some]
  rw [ht]
  refine ⟨?_, hbegun.trans hs.didBeginDrive, fun b hb => ?_, fun c hc => ?_, ?_⟩
  · exact hcurrent.trans List.getLast?_concat.symm
  · exact hlength ▸ Nat.le_succ_of_le (hs.begunAt_le b hb)
  · exact hlength ▸ Nat.le_succ_of_le (hs.createdAt_le c hc)
  · have hremote := hs.remote
    change Remote (s.published ++ [point]) (s.remote.map _) s.createdAt s.begunAt
    cases hc : s.createdAt with
    | none =>
      rw [hc] at hremote
      exact congrArg (Option.map _) hremote
    | some c =>
      rw [hc] at hremote
      cases hb : s.begunAt with
      | none =>
        rw [hb] at hremote
        exact congrArg (Option.map _) hremote
      | some b =>
        rw [hb] at hremote
        obtain ⟨m, hm, hrecords⟩ := hremote
        have hle : max b c ≤ s.published.length :=
          max_le (hs.begunAt_le b hb) (hs.createdAt_le c hc)
        refine ⟨_, Option.mem_map_of_mem _ hm, ?_⟩
        rw [heard_send hle]
        exact @RemoteDatabaseManager.Records.notified code start engine _ _ hrecords point

theorem Tracked.create (hs : s.Tracked) : (s.create code start).Tracked := by
  refine ⟨hs.current, hs.didBeginDrive, hs.begunAt_le, ?_, ?_⟩
  · rintro c hc
    obtain rfl := Option.some.inj hc
    exact le_rfl
  · change Remote s.published (some _) (some s.published.length) s.begunAt
    have hbegun := hs.didBeginDrive
    cases hb : s.begunAt with
    | none =>
      rw [hb] at hbegun
      simp only [RemoteDatabaseManager.subscribeToDriveBeginning, hbegun]
      rfl
    | some b =>
      rw [hb] at hbegun
      refine ⟨_, rfl, ?_⟩
      rw [max_eq_right (hs.begunAt_le b hb), heard_join, ← hs.current]
      simp only [RemoteDatabaseManager.subscribeToDriveBeginning, hbegun, Option.isSome_some,
        if_true]
      exact RemoteDatabaseManager.records_didBeginDriveClosure rfl rfl

theorem tracked_step (hs : s.Tracked) (h : s.step code start e = some t) : t.Tracked := by
  rcases step_cases h with ⟨location, now, -, rfl⟩ | ⟨-, rfl⟩ | ⟨data, newData, -, -, rfl⟩ |
    ⟨newData, -, -, rfl⟩ | ⟨-, -, rfl⟩
  · exact ⟨hs.current, hs.didBeginDrive, hs.begunAt_le, hs.createdAt_le, hs.remote⟩
  · exact hs
  · exact hs.latch newData
  · exact hs.publish newData
  · exact hs.create

theorem tracked_run {es : List Event} (h : Run (ofPartial (step code start)) {} es s) :
    s.Tracked :=
  h.invariant tracked_init fun _ _ _ hs ht => tracked_step hs ht

/-- The point that an event's packet decodes to. -/
def Event.point (e : Event) : Option EngineDataPoint := e.telemetry.bind Telemetry.Event.point

theorem rpm_located {gps : GpsManager} {p q : EngineDataPoint}
    (h : EngineDataStateManager.located gps p = .ok q) : q.rpm = p.rpm :=
  Option.map_injective (fun _ _ => EngineDataPoint.Value.int.inj)
    (Telemetry.field_located h .rpm)

/-- The drive begins with the first packet whose decoded rpm is above 1. -/
theorem begunAt_isSome_iff {es : List Event} (h : Run (ofPartial (step code start)) {} es s) :
    s.begunAt.isSome ↔ ∃ e ∈ es, ∃ p ∈ e.point, Begins p := by
  induction h with
  | nil => simp
  | @snoc es e s t _ hs ih =>
    have hsnoc : (∃ e' ∈ es ++ [e], ∃ p ∈ e'.point, Begins p) ↔
        s.begunAt.isSome ∨ ∃ p ∈ e.point, Begins p := by
      rw [ih]
      simp only [List.mem_append, List.mem_singleton, or_and_right, exists_or, exists_eq_left]
    rw [hsnoc]
    rcases step_cases hs with ⟨location, now, rfl, rfl⟩ | ⟨rfl, rfl⟩ |
      ⟨data, newData, rfl, hnew, rfl⟩ | ⟨newData, rfl, -, rfl⟩ | ⟨rfl, -, rfl⟩
    · simp [Event.point, Event.telemetry, Telemetry.Event.point]
    · simp [Event.point, Event.telemetry, Telemetry.Event.point]
    · obtain ⟨point, hd, hl⟩ := Trap.bind_eq_ok_iff.1 hnew
      have hpoint : (Event.received (some data)).point = some point := by
        simp [Event.point, Event.telemetry, Telemetry.Event.point, hd, Except.toOption]
      have hbegins : Begins newData ↔ Begins point := by
        rw [Begins, rpm_located hl, Begins]
      have hbegunAt : (s.latch code start newData).begunAt =
          s.begunAt.or (if Begins newData then some s.published.length else none) := rfl
      rw [hbegunAt, hpoint, Option.isSome_or, Bool.or_eq_true]
      refine or_congr_right ?_
      by_cases hb : Begins newData
      · simp [hb, hbegins.1 hb]
      · simp [hb, mt hbegins.2 hb]
    · simp [Event.point, Event.telemetry, publish, notify]
    · simp [Event.point, Event.telemetry, create]

/-- The documents of the collection of drives. -/
def drives (s : Recording) : List DriveDocument := s.remote.elim [] (·.drives)

/-- The data points of all drives. -/
def datapoints (s : Recording) : List (List (String × Option EngineDataPoint.Value)) :=
  s.drives.flatMap (·.datapoints)

/-- The values of `current` published from the moment on when the drive had begun and the manager
existed: from the packet on that began the drive, or the latest one where the manager came later. -/
def drivePoints (s : Recording) : List EngineDataPoint :=
  match s.begunAt, s.createdAt with
  | some b, some c => s.published.drop (max b (c - 1))
  | _, _ => []

/-- Before the drive has begun and the manager is there, there is no drive. -/
theorem drives_eq_nil (hs : s.Tracked) (h : s.createdAt = none ∨ s.begunAt = none) :
    s.drives = [] := by
  have hremote := hs.remote
  cases hc : s.createdAt with
  | none =>
    rw [hc] at hremote
    rw [drives, hremote]
    rfl
  | some c =>
    have hb : s.begunAt = none := h.resolve_left (by simp [hc])
    rw [hc, hb] at hremote
    rw [drives, hremote]
    rfl

/-- From then on there is one, with what was heard since the later of the two moments. -/
theorem drives_eq_singleton (hs : s.Tracked) {b c : ℕ} (hb : s.begunAt = some b)
    (hc : s.createdAt = some c) : ∃ data, s.drives =
      [⟨data, (heard s.published (max b c)).map EngineDataPoint.convertToFirestoreData⟩] := by
  have hremote := hs.remote
  rw [hc, hb] at hremote
  obtain ⟨m, hm, -, -, data, hdata⟩ := hremote
  refine ⟨data, ?_⟩
  rw [drives, hm]
  exact hdata

/-- Where the drive has not begun or the manager is not there, the drive's points are none. -/
theorem drivePoints_eq_nil (h : s.createdAt = none ∨ s.begunAt = none) : s.drivePoints = [] := by
  rcases h with hc | hb
  · rw [drivePoints, hc]
    cases s.begunAt <;> rfl
  · rw [drivePoints, hb]

/-- **When a drive records exactly its own data.** In every state of a run there is at most one
drive, created only once a packet came whose rpm is above 1, and its data points are those
published from then on, and from the manager's creation on, each once and in order; the last
exactly where nothing was published before that packet, or the manager was created only after its
publication. -/
theorem drive_records_own_data_iff {es : List Event}
    (h : Run (ofPartial (step code start)) {} es s) :
    (s.drives.length ≤ 1 ∧ (s.drives ≠ [] → ∃ e ∈ es, ∃ p ∈ e.point, Begins p) ∧
      s.datapoints = s.drivePoints.map EngineDataPoint.convertToFirestoreData) ↔
    ∀ b ∈ s.begunAt, ∀ c ∈ s.createdAt, b = 0 ∨ b < c := by
  have hs : s.Tracked := tracked_run h
  rw [← begunAt_isSome_iff h]
  by_cases hnone : s.createdAt = none ∨ s.begunAt = none
  · have hdrives : s.drives = [] := drives_eq_nil hs hnone
    refine iff_of_true ⟨by simp [hdrives], fun h => (h hdrives).elim, ?_⟩ ?_
    · rw [datapoints, hdrives, drivePoints_eq_nil hnone]
      rfl
    · rcases hnone with hc | hb
      · simp [hc]
      · simp [hb]
  · obtain ⟨hcne, hbne⟩ := not_or.1 hnone
    obtain ⟨c, hc⟩ := Option.ne_none_iff_exists'.1 hcne
    obtain ⟨b, hb⟩ := Option.ne_none_iff_exists'.1 hbne
    obtain ⟨data, hdrives⟩ := drives_eq_singleton hs hb hc
    have hpoints : s.drivePoints = s.published.drop (max b (c - 1)) := by
      rw [drivePoints, hb, hc]
    have hone : s.drives.length ≤ 1 ∧ (s.drives ≠ [] → s.begunAt.isSome = true) := by
      simp [hdrives, hb]
    rw [← and_assoc, and_iff_right hone, datapoints, hdrives, hpoints, List.flatMap_singleton,
      map_heard_max_eq_iff _ (hs.begunAt_le b hb) (hs.createdAt_le c hc)]
    simp [hb, hc]

/-- The engine is off in the first packet and runs in the second; the manager is there before. -/
def managerFirst : List Event :=
  [.create, .received (some (.ofBytes (218 :: List.replicate 24 0) fun _ => 0)), .publish,
    .received (some (.ofBytes (218 :: List.replicate 24 1) fun _ => 0)), .publish]

/-- The drive has the first packet's point too. -/
theorem drive_records_earlier_point :
    ∃ s, Run (ofPartial (step (fun _ => "ABCDEF") fun _ => 0)) {} managerFirst s ∧
      s.begunAt = some 1 ∧ s.datapoints.length = 2 ∧
      s.datapoints ≠ s.drivePoints.map EngineDataPoint.convertToFirestoreData := by
  have hrun : Run (ofPartial (step (fun _ => "ABCDEF") fun _ => 0)) {} managerFirst _ :=
    Run.of_foldlM rfl
  refine ⟨_, hrun, rfl, rfl, fun h => ?_⟩
  exact absurd (congrArg List.length h) (by decide)

theorem drive_records_own_data_iff_managerFirst :
    ∃ s, Run (ofPartial (step (fun _ => "ABCDEF") fun _ => 0)) {} managerFirst s ∧
      ((s.drives.length ≤ 1 ∧ (s.drives ≠ [] → ∃ e ∈ managerFirst, ∃ p ∈ e.point, Begins p) ∧
        s.datapoints = s.drivePoints.map EngineDataPoint.convertToFirestoreData) ↔
      ∀ b ∈ s.begunAt, ∀ c ∈ s.createdAt, b = 0 ∨ b < c) := by
  have hrun : Run (ofPartial (step (fun _ => "ABCDEF") fun _ => 0)) {} managerFirst _ :=
    Run.of_foldlM rfl
  exact ⟨_, hrun, drive_records_own_data_iff hrun⟩

end

end Recording

end Rx7
