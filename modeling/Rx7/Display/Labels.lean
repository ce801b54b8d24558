import Rx7.Display.Dashboard
import Rx7.Engine.Location
import Rx7.Foundations.Deferred

/-!
# The labels of the pages

What the labels of the home page and of the gauges page show, over every run:

* `home_shows`: the state of the link, and "Receiving Data" once a packet had an rpm above 1.
* `lag_shows`: once the main queue has run, the lag of the latest point that had a time, of those
  observed since the page was loaded.
* `no_location`: the `GpsManager` is made by the first packet with a time, so that no location is
  known for that packet, and the merge drops the locations of all others. No point is ever
  published with a location, and the label of the coordinates is never set.
-/

namespace Rx7.Dashboard

open Bluetooth Transition Deferred

variable {s t u v : Dashboard} {events pre post : List Event} {e : Event}

/-! ## The home page -/

theorem rpm_located {gps : GpsManager} {p q : EngineDataPoint}
    (h : EngineDataStateManager.located gps p = .ok q) : q.rpm = p.rpm := by
  rcases EngineDataStateManager.located_cases h with ⟨-, rfl⟩ | ⟨time, -, ⟨-, rfl⟩ |
    ⟨location, -, rfl⟩⟩ <;> rfl

/-- What handling a packet does to the latch. -/
theorem didBeginDrive_handled {p q : EngineDataPoint} (h : s.Handled p q t) :
    t.telemetry.engine.didBeginDrive = true ↔
      s.telemetry.engine.didBeginDrive = true ∨ p.rpm.getD 0 > 1 := by
  rw [h.telemetry, ← rpm_located h.located]
  rcases s.telemetry.engine.latch_cases q with ⟨-, hrpm, hlatch⟩ | ⟨hbegun, hlatch⟩
  · simp [hlatch, EngineDataStateManager.didBeginDrive_publish, hrpm]
  · rw [hlatch]
    exact ⟨.inl, fun h => h.elim id hbegun⟩

theorem didBeginDrive_run (h : Run (ofPartial step) {} events t) :
    t.telemetry.engine.didBeginDrive = true ↔ ∃ p ∈ points events, p.rpm.getD 0 > 1 := by
  induction h with
  | nil => simp [points]
  | @snoc events e s t _ hs ih =>
    rw [points_append]
    rcases engine_cases hs with ⟨he, hengine, -⟩ | ⟨p, q, he, hhandled⟩
    · rw [hengine, he, List.append_nil, ih]
    · rw [didBeginDrive_handled hhandled, ih, he]
      simp only [List.mem_append, List.mem_singleton, or_and_right, exists_or, exists_eq_left]

/-- The home page shows the state of the link and of the latch. -/
def ShowsHome (s : Dashboard) : Prop :=
  ∀ home ∈ s.home, home.connectionStatus = some s.state.rawValue ∧
    home.driveCodeLabel =
      if s.telemetry.engine.didBeginDrive then some "Receiving Data" else none

theorem showsHome_step (hs : s.ShowsHome) (h : s.step e = some t) : t.ShowsHome := by
  rcases step_cases h with ⟨bytes, p, q, rfl, -, hhandled⟩ | ⟨state, rfl, rfl⟩ | ⟨-, -, rfl⟩ |
    ⟨rfl, -, rfl⟩ | ⟨cell, row, gauge, rfl, -, rfl⟩ | ⟨rfl, rfl⟩ | ⟨-, gps, now, rfl, -⟩
  · intro home hhome
    rw [hhandled.home] at hhome
    rw [hhandled.state]
    split_ifs at hhome with hsame
    · rw [hsame]
      exact hs home hhome
    · obtain ⟨home', hhome', rfl⟩ := Option.map_eq_some_iff.1 hhome
      have hbegun : t.telemetry.engine.didBeginDrive = true := by
        by_contra hfalse
        have hfalse' : ¬ s.telemetry.engine.didBeginDrive = true := fun hbegun =>
          hfalse ((didBeginDrive_handled hhandled).2 (.inl hbegun))
        exact hsame ((Bool.eq_false_of_not_eq_true hfalse).trans
          (Bool.eq_false_of_not_eq_true hfalse').symm)
      rw [if_pos hbegun]
      exact ⟨(hs home' hhome').1, rfl⟩
  · intro home hhome
    obtain ⟨home', hhome', rfl⟩ := Option.map_eq_some_iff.1 hhome
    exact ⟨rfl, (hs home' hhome').2⟩
  · intro home hhome
    obtain rfl := Option.some.inj hhome
    rw [HomeViewController.setupObservers, HomeViewController.observeDidBeginDrive]
    split_ifs <;> exact ⟨rfl, rfl⟩
  · exact hs
  · exact hs
  · exact hs
  · exact hs

/-- The manager's `state` is what it was sent last. -/
theorem state_run (h : Run (ofPartial step) {} events t) :
    t.state = (events.filterMap Event.sentState).getLast?.getD .unknown := by
  induction h with
  | nil => rfl
  | @snoc events e s t _ hs ih =>
    have hsame : e.sentState = none → t.state = s.state → t.state =
        ((events ++ [e]).filterMap Event.sentState).getLast?.getD .unknown := by
      intro he ht
      rw [List.filterMap_append, List.filterMap_cons_none he, List.filterMap_nil, List.append_nil,
        ht, ih]
    rcases step_cases hs with ⟨bytes, p, q, rfl, -, hhandled⟩ | ⟨state, rfl, rfl⟩ | ⟨he, -, rfl⟩ |
      ⟨rfl, -, rfl⟩ | ⟨cell, row, gauge, rfl, -, rfl⟩ | ⟨rfl, rfl⟩ | ⟨he, gps, now, rfl, -⟩
    · exact hsame rfl hhandled.state
    · rw [List.filterMap_append]
      simp [Event.sentState, stateSent]
    · exact hsame he.sentState rfl
    · exact hsame rfl rfl
    · exact hsame rfl rfl
    · exact hsame rfl rfl
    · exact hsame he.sentState rfl

/-- **The home page tells the state.** In every run, and whenever it was loaded, the home page shows
the state that the link was reported in last, and "Receiving Data" exactly where a packet with an
rpm above 1 was decoded. -/
theorem home_shows (h : Run (ofPartial step) {} events t) {home : HomeViewController}
    (hhome : t.home = some home) :
    home.connectionStatus =
        some ((events.filterMap Event.sentState).getLast?.getD .unknown).rawValue ∧
      (home.driveCodeLabel = some "Receiving Data" ↔ ∃ p ∈ points events, p.rpm.getD 0 > 1) ∧
      (home.driveCodeLabel = none ↔ ∀ p ∈ points events, p.rpm.getD 0 ≤ 1) := by
  have hshows : t.ShowsHome := h.invariant (I := ShowsHome) (by simp [ShowsHome])
    fun _ _ _ hs ht => showsHome_step hs ht
  obtain ⟨hstatus, hdrive⟩ := hshows home hhome
  rw [state_run h] at hstatus
  have hbegun := didBeginDrive_run h
  have hnever : (¬ ∃ p ∈ points events, p.rpm.getD 0 > 1) ↔
      ∀ p ∈ points events, p.rpm.getD 0 ≤ 1 := by
    simp only [not_exists, not_and, not_lt, gt_iff_lt]
  refine ⟨hstatus, ?_, ?_⟩
  · rw [hdrive, ← hbegun]
    split_ifs with hdid <;> simp [hdid]
  · rw [hdrive, ← hnever, ← hbegun]
    split_ifs with hdid <;> simp [hdid]

/-- The home page is loaded behind a packet, and the link is reported. -/
def homeBehindPacket : List Event :=
  [.received (some (.ofBytes (218 :: List.replicate 24 1) fun _ => 0)), .homeDidLoad,
    .stateSent .connected]

theorem home_shows_homeBehindPacket :
    ∃ t home, Run (ofPartial step) {} homeBehindPacket t ∧ t.home = some home ∧
      home.connectionStatus = some ((homeBehindPacket.filterMap Event.sentState).getLast?.getD
        .unknown).rawValue ∧
      (home.driveCodeLabel = some "Receiving Data" ↔
        ∃ p ∈ points homeBehindPacket, p.rpm.getD 0 > 1) ∧
      (home.driveCodeLabel = none ↔ ∀ p ∈ points homeBehindPacket, p.rpm.getD 0 ≤ 1) := by
  have hrun : Run (ofPartial step) {} homeBehindPacket _ := Run.of_foldlM rfl
  exact ⟨_, _, hrun, rfl, home_shows hrun rfl⟩

/-! ## The lag -/

/-- The lag of a point that was observed at some time. -/
def lagOf (p : EngineDataPoint × ℤ) : Option ℤ := p.1.time.map fun time => max 0 (p.2 - time)

def lagText (lag : ℤ) : String := s!"Est. Lag: {lag}ms"

/-- What a block writes to the label of the lag. -/
def lagWrite : EngineDataViewController.Block → Option (Option String)
  | .lag estimatedLag => some (some (lagText estimatedLag))
  | .coordinates _ => none

/-- What the label of the lag will show when the blocks posted so far have run. -/
def dueLag (page : EngineDataViewController) : Option String :=
  due lagWrite page.lagLabel page.posted

/-- The blocks that the observer of `current` posts. -/
def blocksOf (p : EngineDataPoint × ℤ) : List EngineDataViewController.Block :=
  ((lagOf p).map .lag).toList ++ (p.1.location.map .coordinates).toList

theorem observeCurrent_eq (page : EngineDataViewController) (p : EngineDataPoint × ℤ) :
    page.observeCurrent (some p.1) p.2 = { page with posted := page.posted ++ blocksOf p } := by
  have hlag : ∀ time : ℤ, (if p.2 - time < 0 then 0 else p.2 - time) = max 0 (p.2 - time) := by
    intro time
    split_ifs with hneg
    · exact (max_eq_left hneg.le).symm
    · exact (max_eq_right (not_lt.1 hneg)).symm
  simp only [EngineDataViewController.observeCurrent, EngineDataViewController.updateEstimatedLag,
    EngineDataViewController.updateCoordinates, EngineDataViewController.post, hlag, blocksOf,
    lagOf]
  cases p.1.time <;> cases p.1.location <;> simp

theorem dueLag_observeCurrent (page : EngineDataViewController) (p : EngineDataPoint × ℤ) :
    dueLag (page.observeCurrent (some p.1) p.2) =
      ((lagOf p).map lagText).or (dueLag page) := by
  rw [observeCurrent_eq, dueLag, due_append, blocksOf, due_append]
  cases lagOf p <;> cases p.1.location <;> rfl

theorem dueLag_runNext (page : EngineDataViewController) : dueLag page.runNext = dueLag page := by
  unfold EngineDataViewController.runNext
  cases hposted : page.posted with
  | nil => rfl
  | cons block posted =>
    rw [dueLag, dueLag, hposted, due_cons]
    cases block <;> rfl

theorem latest_map_lagText (observed : List (EngineDataPoint × ℤ)) (p : EngineDataPoint × ℤ) :
    (LastWrite.latest ((observed ++ [p]).map lagOf)).map lagText =
      ((lagOf p).map lagText).or ((LastWrite.latest (observed.map lagOf)).map lagText) := by
  rw [List.map_append, List.map_singleton, LastWrite.latest_concat]
  cases lagOf p <;> rfl

/-- What the gauges page observes of `current` once it is loaded. -/
theorem dueLag_run (hload : u.step .pageDidLoad = some v) (h : Run (ofPartial step) v post t) :
    ∃ page since, t.page = some page ∧ t.published = u.published ++ since ∧
      dueLag page = (LastWrite.latest (((u.telemetry.engine.current.map (·, u.now)).toList ++
        since).map lagOf)).map lagText := by
  induction h with
  | nil =>
    simp only [step] at hload
    split_ifs at hload
    obtain rfl := Option.some.inj hload
    refine ⟨_, [], rfl, (List.append_nil _).symm, ?_⟩
    cases hcurrent : u.telemetry.engine.current with
    | none => rfl
    | some point =>
      exact (dueLag_observeCurrent {} (point, u.now)).trans (latest_map_lagText [] _).symm
  | @snoc events e s t _ hs ih =>
    obtain ⟨page, since, hpage, hpublished, hdue⟩ := ih
    rcases step_cases hs with ⟨bytes, p, q, rfl, -, hhandled⟩ | ⟨state, rfl, rfl⟩ | ⟨-, -, rfl⟩ |
      ⟨rfl, hnone, rfl⟩ | ⟨cell, row, gauge, rfl, -, rfl⟩ | ⟨rfl, rfl⟩ | ⟨-, gps, now, rfl, -⟩
    · obtain ⟨point, hcurrent, hnew⟩ := hhandled.published
      refine ⟨page.observeCurrent (some point) s.now, since ++ [(point, s.now)], ?_, ?_, ?_⟩
      · rw [hhandled.page, hpage, hcurrent, Option.map_some]
      · rw [hnew, hpublished, List.append_assoc]
      · rw [← List.append_assoc, latest_map_lagText, ← hdue]
        exact dueLag_observeCurrent page (point, s.now)
    · exact ⟨page.observeState state, since, by simp [stateSent, hpage], hpublished, hdue⟩
    · exact ⟨page, since, hpage, hpublished, hdue⟩
    · rw [hpage] at hnone
      cases hnone
    · exact ⟨page, since, hpage, hpublished, hdue⟩
    · exact ⟨page.runNext, since, by simp [hpage], hpublished, (dueLag_runNext page).trans hdue⟩
    · exact ⟨page, since, hpage, hpublished, hdue⟩

/-- **The lag is that of the latest data.** Once the gauges page is loaded, its label shows, as soon
as the main queue has run the blocks posted to it, the lag of the latest point with a time, of
the present one when the page was loaded and of those published since: the time from the point
to its handling, and never less than 0. -/
theorem lag_shows (hload : u.step .pageDidLoad = some v) (h : Run (ofPartial step) v post t) :
    ∃ page since, t.page = some page ∧ t.published = u.published ++ since ∧
      (page.posted = [] → page.lagLabel = (LastWrite.latest
        (((u.telemetry.engine.current.map (·, u.now)).toList ++ since).map lagOf)).map lagText) ∧
      ∀ p lag, lagOf p = some lag → 0 ≤ lag := by
  obtain ⟨page, since, hpage, hpublished, hdue⟩ := dueLag_run hload h
  refine ⟨page, since, hpage, hpublished, fun hposted => ?_, fun p lag hlag => ?_⟩
  · rw [← hdue, dueLag, hposted, due_nil]
  · obtain ⟨time, -, rfl⟩ := Option.map_eq_some_iff.1 hlag
    exact le_max_left _ _

/-- The page is loaded, a packet is handled, and the main queue runs its block. -/
def lagBehindPacket : List Event :=
  [.clock 5, .received (some (.ofBytes (218 :: List.replicate 24 0) fun _ => 0)), .runNext]

theorem lag_shows_lagBehindPacket :
    ∃ v t, step {} .pageDidLoad = some v ∧ Run (ofPartial step) v lagBehindPacket t ∧
      ∃ page since, t.page = some page ∧ t.published = [] ++ since ∧
        (page.posted = [] → page.lagLabel =
          (LastWrite.latest (([] ++ since).map lagOf)).map lagText) ∧
        ∀ p lag, lagOf p = some lag → 0 ≤ lag := by
  have hrun : Run (ofPartial step) {} (.pageDidLoad :: lagBehindPacket) _ := Run.of_foldlM rfl
  obtain ⟨v, hload, hpost⟩ := hrun.cons_inv
  exact ⟨v, _, hload, hpost, lag_shows hload hpost⟩

/-! ## The location -/

/-- No point has a location, and none is to be shown. -/
structure Unlocated (s : Dashboard) : Prop where
  current_isSome : s.gpsCreated = true → s.telemetry.engine.current.isSome = true
  gps : s.gpsCreated = false → s.telemetry.gps = {}
  published : ∀ p ∈ s.published, p.1.location = none
  current : s.telemetry.currentLocation = none
  page : ∀ page ∈ s.page, page.coordinatesLabel = none ∧
    ∀ location, .coordinates location ∉ page.posted

theorem unlocated_init : Unlocated {} :=
  ⟨by simp, fun _ => rfl, by simp, rfl, by simp⟩

theorem location_publish (self : EngineDataStateManager) (q : EngineDataPoint) :
    ∀ point ∈ (self.publish q).1.current,
      point.location = if self.current.isSome then none else q.location := by
  unfold EngineDataStateManager.publish
  cases self.current with
  | none => rintro _ ⟨⟩; rfl
  | some current => rintro _ ⟨⟩; rfl

/-- The first packet finds no location, and every later one is merged without its own. -/
theorem location_handled {p q : EngineDataPoint} (hs : s.Unlocated) (h : s.Handled p q t)
    (hp : p.location = none) : ∀ point ∈ t.telemetry.engine.current, point.location = none := by
  intro point hpoint
  have hlatch : (s.telemetry.engine.latch q).1.current = s.telemetry.engine.current := by
    rcases s.telemetry.engine.latch_cases q with ⟨-, -, hlatch⟩ | ⟨-, hlatch⟩ <;> rw [hlatch]
  rw [h.telemetry] at hpoint
  rw [location_publish _ q point hpoint, hlatch]
  split_ifs with hsome
  · rfl
  · have hcreated : s.gpsCreated = false := by
      by_contra hcreated
      exact hsome (hs.current_isSome (by simpa using hcreated))
    rw [Telemetry.location_located hp h.located, hs.gps hcreated, Telemetry.fixOf]
    cases p.time <;> rfl

/-- The page observes a point without a location. -/
theorem page_observeCurrent {page : EngineDataViewController} {point : EngineDataPoint} (now : ℤ)
    (hpage : page.coordinatesLabel = none ∧ ∀ location, .coordinates location ∉ page.posted)
    (hpoint : point.location = none) :
    (page.observeCurrent (some point) now).coordinatesLabel = none ∧
      ∀ location, .coordinates location ∉ (page.observeCurrent (some point) now).posted := by
  have hobserve := observeCurrent_eq page (point, now)
  rw [hobserve]
  refine ⟨hpage.1, fun location hmem => ?_⟩
  rcases List.mem_append.1 hmem with hmem | hmem
  · exact hpage.2 location hmem
  · rw [blocksOf, hpoint] at hmem
    cases hlag : lagOf (point, now) <;> simp [hlag] at hmem

theorem page_runNext {page : EngineDataViewController}
    (hpage : page.coordinatesLabel = none ∧ ∀ location, .coordinates location ∉ page.posted) :
    page.runNext.coordinatesLabel = none ∧
      ∀ location, .coordinates location ∉ page.runNext.posted := by
  unfold EngineDataViewController.runNext
  cases hposted : page.posted with
  | nil => exact hpage
  | cons block posted =>
    rw [hposted] at hpage
    have hrest : ∀ location, .coordinates location ∉ posted := fun location hmem =>
      hpage.2 location (List.mem_cons_of_mem _ hmem)
    cases block with
    | lag lag => exact ⟨hpage.1, hrest⟩
    | coordinates location => exact (hpage.2 location List.mem_cons_self).elim

theorem unlocated_step (hs : s.Unlocated) (h : s.step e = some t) : t.Unlocated := by
  rcases step_cases h with ⟨bytes, p, q, rfl, hp, hhandled⟩ | ⟨state, rfl, rfl⟩ | ⟨-, -, rfl⟩ |
    ⟨rfl, -, rfl⟩ | ⟨cell, row, gauge, rfl, -, rfl⟩ | ⟨rfl, rfl⟩ | ⟨-, gps, now, rfl, hgps⟩
  · obtain ⟨point, hcurrent, hpublished⟩ := hhandled.published
    have hlocation : point.location = none := by
      refine location_handled hs hhandled ?_ point hcurrent
      rcases EngineDataPoint.eq_empty_or_timed hp with rfl | htimed
      · rfl
      · exact htimed.2
    refine ⟨fun _ => by rw [hcurrent]; rfl, fun hcreated => ?_, ?_, ?_, ?_⟩
    · rw [hhandled.gpsCreated, Bool.or_eq_false_iff] at hcreated
      rw [hhandled.telemetry]
      exact hs.gps hcreated.1
    · rw [hpublished, List.forall_mem_append, List.forall_mem_singleton]
      exact ⟨hs.published, hlocation⟩
    · rw [Telemetry.currentLocation, hcurrent, Option.bind_some, hlocation]
    · rw [hhandled.page, hcurrent]
      intro page hpage
      obtain ⟨page', hpage', rfl⟩ := Option.map_eq_some_iff.1 hpage
      exact page_observeCurrent s.now (hs.page page' hpage') hlocation
  · refine ⟨hs.current_isSome, hs.gps, hs.published, hs.current, fun page hpage => ?_⟩
    obtain ⟨page', hpage', rfl⟩ := Option.map_eq_some_iff.1 hpage
    exact hs.page page' hpage'
  · exact ⟨hs.current_isSome, hs.gps, hs.published, hs.current, hs.page⟩
  · refine ⟨hs.current_isSome, hs.gps, hs.published, hs.current, fun page hpage => ?_⟩
    obtain rfl := Option.some.inj hpage
    have hcurrent := hs.current
    rw [Telemetry.currentLocation] at hcurrent
    cases hpoint : s.telemetry.engine.current with
    | none => exact ⟨rfl, by simp [EngineDataViewController.setupObservers,
        EngineDataViewController.observeCurrent, EngineDataViewController.observeState]⟩
    | some point =>
      rw [hpoint, Option.bind_some] at hcurrent
      exact page_observeCurrent s.now ⟨rfl, by simp⟩ hcurrent
  · exact ⟨hs.current_isSome, hs.gps, hs.published, hs.current, hs.page⟩
  · refine ⟨hs.current_isSome, hs.gps, hs.published, hs.current, fun page hpage => ?_⟩
    obtain ⟨page', hpage', rfl⟩ := Option.map_eq_some_iff.1 hpage
    exact page_runNext (hs.page page' hpage')
  · exact ⟨hs.current_isSome, fun hcreated => (hgps hcreated).trans (hs.gps hcreated),
      hs.published, hs.current, hs.page⟩

/-- **No location is ever shown or published.** In every run, wherever and whenever the location
manager reports locations, no point that is published has a location, and the gauges page never
sets the label of the coordinates, nor posts a block that would. -/
theorem no_location (h : Run (ofPartial step) {} events t) :
    (∀ p ∈ t.published, p.1.location = none) ∧ t.telemetry.currentLocation = none ∧
      ∀ page ∈ t.page, page.coordinatesLabel = none ∧
        ∀ location, .coordinates location ∉ page.posted := by
  have hs : t.Unlocated := h.invariant unlocated_init fun _ _ _ hs ht => unlocated_step hs ht
  exact ⟨hs.published, hs.current, hs.page⟩

theorem no_location_lagBehindPacket :
    ∃ t, Run (ofPartial step) {} (.pageDidLoad :: lagBehindPacket) t ∧
      (∀ p ∈ t.published, p.1.location = none) ∧ t.telemetry.currentLocation = none ∧
        ∀ page ∈ t.page, page.coordinatesLabel = none ∧
          ∀ location, .coordinates location ∉ page.posted := by
  have hrun : Run (ofPartial step) {} (.pageDidLoad :: lagBehindPacket) _ := Run.of_foldlM rfl
  exact ⟨_, hrun, no_location hrun⟩

end Rx7.Dashboard
