import Rx7.Display.Page

/-!
# The pages over the engine state

`Dashboard` is what shows the engine state, together with that state: the `Telemetry`, the home page
and the gauges page once they are loaded, and the cells of the collection view. What the state
manager sends to its observables is observed by the pages in the same event (`notified`).

`GpsManager.singleton` is made when it is used for the first time, which is in the closure that
handles a packet: only from then on are there location updates (`gpsCreated`). `published` records
the points that `current` was sent, with the time at which it was.
-/

namespace Rx7

open Bluetooth Transition

structure Dashboard where
  telemetry : Telemetry := {}
  gpsCreated : Bool := false
  /-- The value of the Bluetooth manager's `state`. -/
  state : BluetoothState := .unknown
  /-- The clock, in milliseconds after 1970. -/
  now : ℤ := 0
  home : Option HomeViewController := none
  page : Option EngineDataViewController := none
  cells : ℕ → EngineDataCollectionViewCell := fun _ => {}
  published : List (EngineDataPoint × ℤ) := []

namespace Dashboard

inductive Event
  | clock (now : ℤ)
  | didUpdateLocations (location : Option CLLocationCoordinate2D)
  | received (data : Option Data)
  | stateSent (state : BluetoothState)
  | homeDidLoad
  | pageDidLoad
  /-- A cell of the collection view is handed out for a row. -/
  | cellForItemAt (cell row : ℕ)
  | runNext

variable (s : Dashboard)

/-- What is observed of what the state manager sends. -/
def notified : EngineDataStateManager.Notification → Dashboard
  | .didBeginDrive didBegin => { s with home := s.home.map (·.observeDidBeginDrive didBegin) }
  | .current engineData => { s with
      page := s.page.map (·.observeCurrent engineData s.now)
      cells := fun cell => (s.cells cell).observe engineData
      published := s.published ++ engineData.toList.map (·, s.now) }

/-- Whether handling a packet asks the `GpsManager` for a location. -/
def asksForLocation (data : Option Data) : Bool :=
  data.any fun data => (EngineDataPoint.fromData data).toOption.any fun point => point.time.isSome

/-- The closure that handles a packet, with what is observed of what it sends. -/
def received (data : Option Data) : Option Dashboard :=
  match s.telemetry.engine.received s.telemetry.gps data with
  | .error _ => none
  | .ok (engine, sent) => some (sent.foldl notified { s with
      telemetry := { s.telemetry with engine }
      gpsCreated := s.gpsCreated || asksForLocation data })

/-- The manager's `state` is sent a value. -/
def stateSent (state : BluetoothState) : Dashboard :=
  { s with
    state
    home := s.home.map (·.observeState state)
    page := s.page.map (·.observeState state) }

/-- `collectionView(_:cellForItemAt:)`, with the cell that was dequeued. -/
def cellForItemAt (cell row : ℕ) : Dashboard :=
  match EngineDataItem.ofRawValue row with
  | none => s
  | some gauge => { s with
      cells := Function.update s.cells cell
        ((s.cells cell).bind gauge s.telemetry.engine.current) }

/-- One event; a trap leaves no state. The pages load once. -/
def step : Event → Option Dashboard
  | .clock now => some { s with now }
  | .didUpdateLocations location =>
    if s.gpsCreated then some { s with
      telemetry := { s.telemetry with
        gps := s.telemetry.gps.didUpdateLocations location s.now } }
    else none
  | .received data => s.received data
  | .stateSent state => some (s.stateSent state)
  | .homeDidLoad =>
    if s.home.isNone then some { s with
      home := some (HomeViewController.setupObservers {} s.state s.telemetry.engine.didBeginDrive) }
    else none
  | .pageDidLoad =>
    if s.page.isNone then some { s with
      page := some (EngineDataViewController.setupObservers {} s.telemetry.engine.current s.now
        s.state) }
    else none
  | .cellForItemAt cell row => some (s.cellForItemAt cell row)
  | .runNext => some { s with page := s.page.map (·.runNext) }

/-! ## What an event does -/

section

variable {s t u : Dashboard} {events : List Event} {e : Event}

/-- A packet was decoded to `p`, located as `q`, and published over the current point. -/
structure Handled (s : Dashboard) (p q : EngineDataPoint) (t : Dashboard) : Prop where
  located : EngineDataStateManager.located s.telemetry.gps p = .ok q
  telemetry : t.telemetry = { s.telemetry with
    engine := ((s.telemetry.engine.latch q).1.publish q).1 }
  gpsCreated : t.gpsCreated = (s.gpsCreated || p.time.isSome)
  state : t.state = s.state
  now : t.now = s.now
  home : t.home = if t.telemetry.engine.didBeginDrive = s.telemetry.engine.didBeginDrive then s.home
    else s.home.map (·.observeDidBeginDrive true)
  page : t.page = s.page.map (·.observeCurrent t.telemetry.engine.current s.now)
  cells : ∀ cell, t.cells cell = (s.cells cell).observe t.telemetry.engine.current
  published : ∃ point, t.telemetry.engine.current = some point ∧
    t.published = s.published ++ [(point, s.now)]

/-- **What handling a packet does**: no data changes nothing, and any other is decoded, located and
published. -/
theorem received_cases {data : Option Data} (h : s.received data = some t) :
    (data = none ∧ t = s) ∨ ∃ bytes p q, data = some bytes ∧
      EngineDataPoint.fromData bytes = .ok p ∧ s.Handled p q t := by
  unfold received at h
  rcases data with _ | bytes
  · refine .inl ⟨rfl, ?_⟩
    obtain rfl := Option.some.inj h
    simp [asksForLocation]
  · cases hr : s.telemetry.engine.received s.telemetry.gps (some bytes) with
    | error trap =>
      rw [hr] at h
      cases h
    | ok r =>
      rw [hr] at h
      obtain ⟨p, q, hp, hq, rfl⟩ := EngineDataStateManager.received_eq_ok_iff.1 hr
      obtain rfl := Option.some.inj h
      have hasks : asksForLocation (some bytes) = p.time.isSome := by
        simp [asksForLocation, hp, Except.toOption]
      rw [hasks]
      refine .inr ⟨bytes, p, q, rfl, hp, ?_⟩
      rcases s.telemetry.engine.latch_cases q with ⟨hbegun, -, hlatch⟩ | ⟨-, hlatch⟩
      · have hraised : true ≠ s.telemetry.engine.didBeginDrive := by simp [hbegun]
        rw [hlatch]
        exact ⟨hq, by rw [hlatch]; rfl, rfl, rfl, rfl, (if_neg hraised).symm, rfl, fun cell => rfl,
          _, rfl, rfl⟩
      · rw [hlatch]
        exact ⟨hq, by rw [hlatch]; rfl, rfl, rfl, rfl, (if_pos rfl).symm, rfl, fun cell => rfl, _,
          rfl, rfl⟩

/-! ### Histories -/

/-- The packet that an event handles. -/
def Event.packet : Event → List (Option Data)
  | .received data => [data]
  | _ => []

/-- The gauge that an event binds a cell to. -/
def Event.binding (cell : ℕ) : Event → Option EngineDataItem
  | .cellForItemAt cell' row => if cell' = cell then EngineDataItem.ofRawValue row else none
  | _ => none

/-- The state that an event sends to the manager's `state`. -/
def Event.sentState : Event → Option BluetoothState
  | .stateSent state => some state
  | _ => none

/-- The decoded packets of a history, oldest first. -/
def points (events : List Event) : List EngineDataPoint :=
  (events.flatMap Event.packet).filterMap fun data =>
    data.bind fun data => (EngineDataPoint.fromData data).toOption

/-- An event that decodes no packet, binds no cell and sends no state. -/
structure Event.Silent (e : Event) : Prop where
  points : points [e] = []
  binding : ∀ cell, e.binding cell = none
  sentState : e.sentState = none

/-- **What an event does.** It handles a packet, sends a state, loads a page, binds a cell or runs a
block; or it is silent, and touches the clock and the location history at most. -/
theorem step_cases (h : s.step e = some t) :
    (∃ bytes p q, e = .received (some bytes) ∧ EngineDataPoint.fromData bytes = .ok p ∧
      s.Handled p q t) ∨
    (∃ state, e = .stateSent state ∧ t = s.stateSent state) ∨
    (e.Silent ∧ s.home = none ∧ t = { s with
      home := some (HomeViewController.setupObservers {} s.state
        s.telemetry.engine.didBeginDrive) }) ∨
    (e = .pageDidLoad ∧ s.page = none ∧ t = { s with
      page := some (EngineDataViewController.setupObservers {} s.telemetry.engine.current s.now
        s.state) }) ∨
    (∃ cell row gauge, e = .cellForItemAt cell row ∧ EngineDataItem.ofRawValue row = some gauge ∧
      t = { s with
        cells := Function.update s.cells cell
          ((s.cells cell).bind gauge s.telemetry.engine.current) }) ∨
    (e = .runNext ∧ t = { s with page := s.page.map (·.runNext) }) ∨
    (e.Silent ∧ ∃ gps now, t = { s with telemetry := { s.telemetry with gps }, now } ∧
      (s.gpsCreated = false → gps = s.telemetry.gps)) := by
  cases e with
  | received data =>
    rcases received_cases h with ⟨rfl, rfl⟩ | ⟨bytes, p, q, rfl, hp, hs⟩
    · refine .inr (.inr (.inr (.inr (.inr (.inr ⟨⟨rfl, fun _ => rfl, rfl⟩, ?_⟩)))))
      exact ⟨_, _, rfl, fun _ => rfl⟩
    · exact .inl ⟨bytes, p, q, rfl, hp, hs⟩
  | stateSent state =>
    exact .inr (.inl ⟨state, rfl, (Option.some.inj h).symm⟩)
  | homeDidLoad =>
    simp only [step] at h
    split_ifs at h with hhome
    exact .inr (.inr (.inl ⟨⟨rfl, fun _ => rfl, rfl⟩, Option.isNone_iff_eq_none.1 hhome,
      (Option.some.inj h).symm⟩))
  | pageDidLoad =>
    simp only [step] at h
    split_ifs at h with hpage
    exact .inr (.inr (.inr (.inl ⟨rfl, Option.isNone_iff_eq_none.1 hpage,
      (Option.some.inj h).symm⟩)))
  | cellForItemAt cell row =>
    obtain rfl := Option.some.inj h
    unfold cellForItemAt
    cases hrow : EngineDataItem.ofRawValue row with
    | none =>
      refine .inr (.inr (.inr (.inr (.inr (.inr ⟨⟨rfl, fun cell' => ?_, rfl⟩, ?_⟩)))))
      · simp [Event.binding, hrow]
      · exact ⟨_, _, rfl, fun _ => rfl⟩
    | some gauge => exact .inr (.inr (.inr (.inr (.inl ⟨cell, row, gauge, rfl, hrow, rfl⟩))))
  | runNext => exact .inr (.inr (.inr (.inr (.inr (.inl ⟨rfl, (Option.some.inj h).symm⟩)))))
  | clock now =>
    refine .inr (.inr (.inr (.inr (.inr (.inr ⟨⟨rfl, fun _ => rfl, rfl⟩, ?_⟩)))))
    exact ⟨_, now, (Option.some.inj h).symm, fun _ => rfl⟩
  | didUpdateLocations location =>
    simp only [step] at h
    split_ifs at h with hcreated
    refine .inr (.inr (.inr (.inr (.inr (.inr ⟨⟨rfl, fun _ => rfl, rfl⟩, ?_⟩)))))
    exact ⟨_, _, (Option.some.inj h).symm, fun hnot => (by rw [hcreated] at hnot; cases hnot)⟩

/-- **An event decodes a packet, or leaves the engine state alone.** -/
theorem engine_cases (h : s.step e = some t) :
    (points [e] = [] ∧ t.telemetry.engine = s.telemetry.engine ∧ t.published = s.published) ∨
      ∃ p q, points [e] = [p] ∧ s.Handled p q t := by
  rcases step_cases h with ⟨bytes, p, q, rfl, hp, hs⟩ | ⟨state, rfl, rfl⟩ | ⟨he, -, rfl⟩ |
    ⟨rfl, -, rfl⟩ | ⟨cell, row, gauge, rfl, -, rfl⟩ | ⟨rfl, rfl⟩ | ⟨he, gps, now, rfl, -⟩
  · exact .inr ⟨p, q, by simp [points, Event.packet, hp, Except.toOption], hs⟩
  · exact .inl ⟨rfl, rfl, rfl⟩
  · exact .inl ⟨he.points, rfl, rfl⟩
  · exact .inl ⟨rfl, rfl, rfl⟩
  · exact .inl ⟨rfl, rfl, rfl⟩
  · exact .inl ⟨rfl, rfl, rfl⟩
  · exact .inl ⟨he.points, rfl, rfl⟩

theorem points_append (events events' : List Event) :
    points (events ++ events') = points events ++ points events' := by
  simp [points]

theorem fromData_of_mem_points {p : EngineDataPoint} (h : p ∈ points events) :
    ∃ data, EngineDataPoint.fromData data = .ok p := by
  obtain ⟨_ | data, -, hdata⟩ := List.mem_filterMap.1 h
  · cases hdata
  · rw [Option.bind_some] at hdata
    cases hd : EngineDataPoint.fromData data with
    | error trap => simp [hd, Except.toOption] at hdata
    | ok point =>
      obtain rfl : point = p := by simpa [hd, Except.toOption] using hdata
      exact ⟨data, hd⟩

/-! ## The telemetry -/

/-- The packet that an event of the telemetry handles. -/
def packetOf : Telemetry.Event → List (Option Data)
  | .received data => [data]
  | .didUpdateLocations .. => []

theorem points_telemetry (labels : List Telemetry.Event) :
    Telemetry.points labels = (labels.flatMap packetOf).filterMap fun data =>
      data.bind fun data => (EngineDataPoint.fromData data).toOption := by
  induction labels with
  | nil => rfl
  | cons label labels ih =>
    rcases label with ⟨location, now⟩ | _ | data
    · exact ih
    · exact ih
    · rw [Telemetry.points, List.filterMap_cons, List.flatMap_cons, List.filterMap_append, ← ih]
      simp only [packetOf, Telemetry.Event.point, List.filterMap_cons, List.filterMap_nil,
        Option.bind_some]
      cases (EngineDataPoint.fromData data).toOption <;> rfl

/-- An event is matched by one of the telemetry, or by none. -/
theorem telemetry_step (h : s.step e = some t) :
    ∃ labels, Run (ofPartial Telemetry.step) s.telemetry labels t.telemetry ∧
      labels.flatMap packetOf = e.packet := by
  have hsame : ∀ {t : Dashboard} {e : Event}, e.packet = [] → t.telemetry = s.telemetry →
      ∃ labels, Run (ofPartial Telemetry.step) s.telemetry labels t.telemetry ∧
        labels.flatMap packetOf = e.packet := fun hp ht => ⟨[], ht ▸ .nil, hp.symm⟩
  cases e with
  | received data =>
    refine ⟨[.received data], .single ?_, rfl⟩
    rcases received_cases h with ⟨rfl, rfl⟩ | ⟨bytes, p, q, rfl, hp, hs⟩
    · rfl
    · have hr : s.telemetry.engine.received s.telemetry.gps (some bytes) = .ok _ :=
        EngineDataStateManager.received_eq_ok_iff.2 ⟨p, q, hp, hs.located, rfl⟩
      rw [ofPartial, hs.telemetry]
      simp only [Telemetry.step, hr]
  | clock now | stateSent state | runNext =>
    obtain rfl := Option.some.inj h
    exact hsame rfl rfl
  | cellForItemAt cell row =>
    obtain rfl := Option.some.inj h
    refine hsame rfl ?_
    unfold cellForItemAt
    split <;> rfl
  | homeDidLoad | pageDidLoad =>
    simp only [step] at h
    split_ifs at h
    obtain rfl := Option.some.inj h
    exact hsame rfl rfl
  | didUpdateLocations location =>
    simp only [step] at h
    split_ifs at h
    obtain rfl := Option.some.inj h
    exact ⟨[.didUpdateLocations location s.now], .single rfl, rfl⟩

/-- **The dashboard runs the telemetry**, on the packets it handles. -/
theorem telemetry_run (h : Run (ofPartial step) {} events t) :
    ∃ labels, Run (ofPartial Telemetry.step) {} labels t.telemetry ∧
      Telemetry.points labels = points events := by
  obtain ⟨labels, hrun, hpackets⟩ := h.refine (f := telemetry) (I := fun _ => True) trivial
    (fun _ _ _ _ _ => trivial) fun _ _ _ _ hs => telemetry_step hs
  exact ⟨labels, hrun, by rw [points_telemetry, hpackets, points]⟩

/-- Each field of `current` is that of the latest packet that carried it. -/
theorem current_run (h : Run (ofPartial step) {} events t) :
    (t.telemetry.engine.current.isSome ↔ points events ≠ []) ∧
      ∀ key, (t.telemetry.engine.current.bind fun p => p.field key) =
        LastWrite.latest ((points events).map fun p => p.field key) := by
  obtain ⟨labels, hrun, hpoints⟩ := telemetry_run h
  rw [← hpoints]
  exact Telemetry.current_run hrun

end

end Dashboard

end Rx7
