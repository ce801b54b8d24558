import Rx7.Display.Dashboard

/-!
# The cells of the gauges page

A cell is handed out for one gauge after another (`bindings`), each time with a new view model. What
an event does to a cell is one of three things (`cell_cases`): the cell is bound, it observes a
published point, or it stays as it is.

* `cell_shows_current`: in every run, a cell has the title of the gauge it was bound to last and
  the text of the value that this gauge reads in `current`.
* `chart_of_bound`: the chart of a gauge that has one is the window of the samples since the cell
  was bound.
* `chart_kept`: a gauge that has none shows the chart that the cell had before, as it was then.
-/

namespace Rx7.Dashboard

open EngineDataPoint Transition

open EngineDataCollectionViewCellViewModel (item numberValue observed ofGauge samples entries
  maxChartDatapoints latestText)

/-- The gauges that a cell was bound to, in order. -/
def bindings (cell : ℕ) (events : List Event) : List EngineDataItem :=
  events.filterMap (Event.binding cell)

/-- The text of what a gauge reads. -/
def textOf (value : Option Value) : String := (value.map Value.description).getD ""

variable {s t u v : Dashboard} {events post : List Event} {e : Event} {cell row : ℕ}
  {gauge : EngineDataItem}

theorem bindings_concat (cell : ℕ) (events : List Event) (e : Event) :
    bindings cell (events ++ [e]) = bindings cell events ++ (e.binding cell).toList := by
  cases he : e.binding cell <;> simp [bindings, he]

/-- **What an event does to a cell.** -/
theorem cell_cases (h : s.step e = some t) (cell : ℕ) :
    (∃ gauge, e.binding cell = some gauge ∧ t.telemetry = s.telemetry ∧
      t.published = s.published ∧
      t.cells cell = (s.cells cell).bind gauge s.telemetry.engine.current) ∨
    (e.binding cell = none ∧ t.telemetry.engine.current = s.telemetry.engine.current ∧
      t.published = s.published ∧ t.cells cell = s.cells cell) ∨
    (e.binding cell = none ∧ ∃ p q point, s.Handled p q t ∧
      t.telemetry.engine.current = some point ∧ t.published = s.published ++ [(point, s.now)] ∧
      t.cells cell = (s.cells cell).observe (some point)) := by
  rcases step_cases h with ⟨bytes, p, q, rfl, -, hs⟩ | ⟨state, rfl, rfl⟩ | ⟨he, -, rfl⟩ |
    ⟨rfl, -, rfl⟩ | ⟨cell', row, gauge, rfl, hrow, rfl⟩ | ⟨rfl, rfl⟩ | ⟨he, gps, now, rfl, -⟩
  · obtain ⟨point, hpoint, hpublished⟩ := hs.published
    exact .inr (.inr ⟨rfl, p, q, point, hs, hpoint, hpublished, hpoint ▸ hs.cells cell⟩)
  · exact .inr (.inl ⟨rfl, rfl, rfl, rfl⟩)
  · exact .inr (.inl ⟨he.binding cell, rfl, rfl, rfl⟩)
  · exact .inr (.inl ⟨rfl, rfl, rfl, rfl⟩)
  · by_cases hcell : cell' = cell
    · subst hcell
      exact .inl ⟨gauge, (if_pos rfl).trans hrow, rfl, rfl, Function.update_self ..⟩
    · exact .inr (.inl ⟨if_neg hcell, rfl, rfl, Function.update_of_ne (Ne.symm hcell) ..⟩)
  · exact .inr (.inl ⟨rfl, rfl, rfl, rfl⟩)
  · exact .inr (.inl ⟨he.binding cell, rfl, rfl, rfl⟩)

/-! ## Titles and texts -/

theorem value_observe (self : EngineDataCollectionViewCellViewModel) (gauge : EngineDataItem)
    (p : Option EngineDataPoint) :
    (self.observe gauge p).value = ((item gauge p).map Value.description).getD self.value ∧
      (self.observe gauge p).shouldDisplayChart = self.shouldDisplayChart := by
  unfold EngineDataCollectionViewCellViewModel.observe
  cases item gauge p with
  | none => exact ⟨rfl, rfl⟩
  | some value =>
    dsimp only
    split_ifs
    · cases Swift.double value.description <;> exact ⟨rfl, rfl⟩
    · exact ⟨rfl, rfl⟩

/-- The cell shows what its gauge reads in the current point. -/
structure Shows (current : Option EngineDataPoint) (cell : EngineDataCollectionViewCell)
    (gauge : EngineDataItem) (viewModel : EngineDataCollectionViewCellViewModel) : Prop where
  title : cell.title = some gauge.title
  value : cell.value = some viewModel.value
  text : viewModel.value = textOf (item gauge current)
  shouldDisplayChart : viewModel.shouldDisplayChart = gauge.shouldDisplayChart

theorem shows_bind (cell : EngineDataCollectionViewCell) (gauge : EngineDataItem)
    (current : Option EngineDataPoint) :
    Shows current (cell.bind gauge current) gauge ((ofGauge gauge).observe gauge current) := by
  obtain ⟨hvalue, hchart⟩ := value_observe (ofGauge gauge) gauge current
  exact ⟨rfl, rfl, hvalue, hchart⟩

/-- A value that `current` has for a gauge stays until it is replaced. -/
theorem item_published {p q point : EngineDataPoint} (h : s.Handled p q t)
    (hpoint : t.telemetry.engine.current = some point) (hnone : item gauge (some point) = none) :
    item gauge s.telemetry.engine.current = none := by
  obtain ⟨key, hkey⟩ := exists_field_eq_subscript gauge
  have hcurrent : (t.telemetry.engine.current.bind fun p => p.field key) =
      (q.field key).or (s.telemetry.engine.current.bind fun p => p.field key) := by
    rw [h.telemetry, ← Telemetry.field_publish]
    rcases s.telemetry.engine.latch_cases q with ⟨-, -, hlatch⟩ | ⟨-, hlatch⟩
    · rw [hlatch]
      rfl
    · rw [hlatch]
  rw [hpoint, Option.bind_some, ← hkey point] at hcurrent
  have hread : point.subscript gauge = none := hnone
  rw [hread, eq_comm, Option.or_eq_none_iff] at hcurrent
  have hitem : item gauge s.telemetry.engine.current =
      s.telemetry.engine.current.bind fun p => p.field key :=
    congrArg _ (funext hkey)
  rw [hitem, hcurrent.2]

theorem shows_observe {p q point : EngineDataPoint} {cell : EngineDataCollectionViewCell}
    {viewModel : EngineDataCollectionViewCellViewModel} (h : s.Handled p q t)
    (hpoint : t.telemetry.engine.current = some point)
    (hs : Shows s.telemetry.engine.current cell gauge viewModel)
    (hcell : cell.viewModel = some (gauge, viewModel)) :
    (cell.observe (some point)).viewModel = some (gauge, viewModel.observe gauge (some point)) ∧
      Shows (some point) (cell.observe (some point)) gauge
        (viewModel.observe gauge (some point)) := by
  obtain ⟨hvalue, hchart⟩ := value_observe viewModel gauge (some point)
  have hobserve : cell.observe (some point) = { cell with
      value := some (viewModel.observe gauge (some point)).value
      viewModel := some (gauge, viewModel.observe gauge (some point)) } := by
    rw [EngineDataCollectionViewCell.observe, hcell]
  rw [hobserve]
  refine ⟨rfl, hs.title, rfl, ?_, hchart.trans hs.shouldDisplayChart⟩
  rw [hvalue]
  cases hitem : item gauge (some point) with
  | none =>
    -- The value was not there before, either.
    rw [Option.map_none, Option.getD_none, hs.text, item_published h hpoint hitem]
  | some value => rfl

/-- In every run a cell shows the gauge it was bound to last. -/
theorem shows_run (h : Run (ofPartial step) {} events t) (cell : ℕ) :
    (bindings cell events).getLast?.elim (t.cells cell = {}) fun gauge =>
      ∃ viewModel, (t.cells cell).viewModel = some (gauge, viewModel) ∧
        Shows t.telemetry.engine.current (t.cells cell) gauge viewModel := by
  induction h with
  | nil => rfl
  | @snoc events e s t _ hs ih =>
    rw [bindings_concat]
    rcases cell_cases hs cell with ⟨gauge, he, htelemetry, -, hcell⟩ | ⟨he, hcurrent, -, hcell⟩ |
      ⟨he, p, q, point, hhandled, hcurrent, -, hcell⟩
    · rw [he, Option.toList_some, List.getLast?_concat, hcell, htelemetry]
      exact ⟨_, rfl, shows_bind _ _ _⟩
    · rw [he, Option.toList_none, List.append_nil, hcell, hcurrent]
      exact ih
    · rw [he, Option.toList_none, List.append_nil, hcell, hcurrent]
      cases hlast : (bindings cell events).getLast? with
      | none =>
        rw [hlast, Option.elim_none] at ih
        rw [ih]
        rfl
      | some gauge =>
        rw [hlast] at ih
        obtain ⟨viewModel, hviewModel, hshows⟩ := ih
        exact ⟨_, shows_observe hhandled hcurrent hshows hviewModel⟩

/-- The field that a gauge reads. -/
def readKey (gauge : EngineDataItem) : EngineDataItem :=
  if gauge = .fuelPumpControl then .fuelCorrection else gauge

theorem item_eq_field (gauge : EngineDataItem) (p : Option EngineDataPoint) :
    item gauge p = p.bind fun p => p.field (readKey gauge) := by
  refine congrArg _ (funext fun point => ?_)
  by_cases hgauge : gauge = .fuelPumpControl
  · rw [hgauge, readKey, if_pos rfl]
    exact subscript_fuelPumpControl point
  · rw [readKey, if_neg hgauge]
    exact subscript_of_ne hgauge point

/-- The value of a field that the first packets of a history carried last. -/
def carriedLast (key : EngineDataItem) (packets : List EngineDataPoint) : Option Value :=
  LastWrite.latest (packets.map fun p => p.field key)

/-- **Every cell shows its gauge.** In every run, whatever cells were handed out for whatever gauges
and at whatever moments, a cell has the title of the gauge it was bound to last, and the text of
the value that was carried last in the field which that gauge reads. -/
theorem cell_shows_current (h : Run (ofPartial step) {} events t)
    (hlast : (bindings cell events).getLast? = some gauge) :
    (t.cells cell).title = some gauge.title ∧
      (t.cells cell).value = some (textOf (carriedLast (readKey gauge) (points events))) := by
  have hshows := shows_run h cell
  rw [hlast] at hshows
  obtain ⟨viewModel, -, hshows⟩ := hshows
  refine ⟨hshows.title, ?_⟩
  rw [hshows.value, hshows.text, item_eq_field, (current_run h).2, carriedLast]

/-- A basic packet. -/
def basicPacket : Event := .received (some (.ofBytes (218 :: List.replicate 24 0) fun _ => 0))

/-- A cell is handed out for the rpm, and for the speed behind a packet. -/
def handedOutTwice : List Event := [.cellForItemAt 3 0, basicPacket, .cellForItemAt 3 7]

theorem cell_shows_current_handedOutTwice :
    ∃ t, Run (ofPartial step) {} handedOutTwice t ∧
      (t.cells 3).title = some EngineDataItem.speed.title ∧
      (t.cells 3).value =
        some (textOf (carriedLast (readKey .speed) (points handedOutTwice))) := by
  have hrun : Run (ofPartial step) {} handedOutTwice _ := Run.of_foldlM rfl
  exact ⟨_, hrun, cell_shows_current hrun (by decide)⟩

/-! ## Charts -/

/-- The values of a field in the points that were published are those carried last so far. -/
theorem published_run (h : Run (ofPartial step) {} events t) (key : EngineDataItem) :
    t.published.map (fun p => p.1.field key) =
      (List.range (points events).length).map fun i =>
        carriedLast key ((points events).take (i + 1)) := by
  induction h with
  | nil => rfl
  | @snoc events e s t h hs ih =>
    rw [points_append]
    rcases engine_cases hs with ⟨he, -, hpublished⟩ | ⟨p, q, he, hhandled⟩
    · rw [hpublished, he, List.append_nil, ih]
    · obtain ⟨point, hcurrent, hpublished⟩ := hhandled.published
      have hnew := (current_run (h.snoc hs)).2 key
      rw [points_append, he, hcurrent, Option.bind_some] at hnew
      rw [hpublished, he, List.map_append, ih, List.length_append, List.length_singleton,
        List.range_succ, List.map_append]
      congr 1
      · refine List.map_congr_left fun i hi => ?_
        rw [List.take_append_of_le_length (Nat.succ_le_of_lt (List.mem_range.1 hi))]
      · have htake : (points events ++ [p]).take ((points events).length + 1) =
            points events ++ [p] := List.take_of_length_le (by simp)
        rw [List.map_singleton, List.map_singleton, htake, carriedLast, hnew]

/-- The published points are in tenths. -/
theorem inTenths_published (h : Run (ofPartial step) {} events t) :
    ∀ p ∈ t.published, p.1.InTenths := by
  intro p hp key value hfield
  have hmem : some (.double value) ∈ t.published.map fun p => p.1.field key :=
    List.mem_map.2 ⟨p, hp, hfield⟩
  rw [published_run h key] at hmem
  obtain ⟨i, -, hlast⟩ := List.mem_map.1 hmem
  obtain ⟨packet, hpacket, hvalue⟩ := List.mem_map.1 (LastWrite.mem_of_latest hlast)
  obtain ⟨data, hdata⟩ := fromData_of_mem_points (List.mem_of_mem_take hpacket)
  exact inTenths_of_fromData hdata key value hvalue

/-- While it is not handed out again, a cell observes what is published. -/
theorem viewModel_of_bound (hbind : u.step (.cellForItemAt cell row) = some v)
    (hrow : EngineDataItem.ofRawValue row = some gauge) (h : Run (ofPartial step) v post t)
    (hkept : bindings cell post = []) :
    ∃ since, t.published = u.published ++ since ∧ (t.cells cell).viewModel =
        some (gauge, observed gauge (u.telemetry.engine.current :: since.map fun p => some p.1)) ∧
      (gauge.shouldDisplayChart = true → (t.cells cell).chartData = some .own) := by
  induction h with
  | nil =>
    obtain rfl := Option.some.inj hbind
    have hcell : (u.cellForItemAt cell row).cells cell =
        (u.cells cell).bind gauge u.telemetry.engine.current := by
      simp only [cellForItemAt, hrow, Function.update_self]
    have hpublished : (u.cellForItemAt cell row).published = u.published := by
      simp only [cellForItemAt, hrow]
    refine ⟨[], by rw [hpublished, List.append_nil], by rw [hcell]; rfl, fun hchart => ?_⟩
    have hdisplay := (shows_bind (u.cells cell) gauge u.telemetry.engine.current).shouldDisplayChart
    rw [hcell]
    exact if_pos (hdisplay.trans hchart)
  | @snoc events e s t _ hs ih =>
    rw [bindings_concat, List.append_eq_nil_iff, Option.toList_eq_nil_iff] at hkept
    obtain ⟨since, hpublished, hviewModel, hchart⟩ := ih hkept.1
    rcases cell_cases hs cell with ⟨gauge, he, -⟩ | ⟨-, -, hpublished', hcell⟩ |
      ⟨-, p, q, point, -, -, hpublished', hcell⟩
    · rw [hkept.2] at he
      cases he
    · exact ⟨since, hpublished'.trans hpublished, by rw [hcell, hviewModel], by rwa [hcell]⟩
    · refine ⟨since ++ [(point, s.now)], ?_, ?_, fun hdisplay => ?_⟩
      · rw [hpublished', hpublished, List.append_assoc]
      · rw [hcell, EngineDataCollectionViewCell.observe, hviewModel, List.map_append,
          ← List.cons_append, List.map_singleton,
          EngineDataCollectionViewCellViewModel.observed_concat]
      · rw [hcell, EngineDataCollectionViewCell.observe, hviewModel]
        exact hchart hdisplay

/-- The samples of a gauge whose cell was bound when `bound` packets had been decoded: the number
that was carried last then, and behind each later packet, if there is one, as a `Double`. -/
def samplesSince (gauge : EngineDataItem) (bound : ℕ) (packets : List EngineDataPoint) :
    List Double :=
  (List.range' bound (packets.length - bound + 1)).filterMap fun i =>
    (carriedLast (readKey gauge) (packets.take i)).bind Value.asDouble

/-- The values of a field in the present point and in those published later are those that were
carried last behind so many packets. -/
theorem map_field_delivered {events' : List Event} {since : List (EngineDataPoint × ℤ)}
    (h : Run (ofPartial step) {} events s) (h' : Run (ofPartial step) {} (events ++ events') t)
    (hsince : t.published = s.published ++ since) (key : EngineDataItem) :
    (s.telemetry.engine.current :: since.map fun p => some p.1).map
        (fun p => p.bind fun p => p.field key) =
      (List.range' (points events).length ((points (events ++ events')).length -
        (points events).length + 1)).map fun i =>
          carriedLast key ((points (events ++ events')).take i) := by
  have hlength : s.published.length = (points events).length := by
    simpa using congrArg List.length (published_run h key)
  have hlater := congrArg (List.drop s.published.length) (published_run h' key)
  rw [hsince, List.map_append, List.drop_left' (List.length_map _), ← List.map_drop,
    List.range_eq_range', List.drop_range', hlength] at hlater
  rw [List.map_cons, List.range'_succ, List.map_cons]
  congr 1
  · rw [(current_run h).2, points_append, List.take_left' rfl, carriedLast]
  · rw [Nat.mul_one, Nat.zero_add] at hlater
    rw [List.range'_succ_left, List.map_map, List.map_map]
    exact hlater

/-- **A cell's chart is the window of the samples since the cell was bound.** The chart of a gauge
shows the last 30 of the numbers that its field had when the cell was handed out and behind each
packet decoded since, of whatever kind, as `Double`s and at their positions in the count of these
numbers. -/
theorem chart_of_bound {pre : List Event} (hpre : Run (ofPartial step) {} pre u)
    (hbind : u.step (.cellForItemAt cell row) = some v)
    (hrow : EngineDataItem.ofRawValue row = some gauge) (hchart : gauge.shouldDisplayChart = true)
    (hpost : Run (ofPartial step) v post t) (hkept : bindings cell post = []) :
    (t.cells cell).chart = some ((entries (samplesSince gauge (points pre).length
      (points (pre ++ .cellForItemAt cell row :: post)))).rtake maxChartDatapoints) := by
  obtain ⟨since, hpublished, hviewModel, hown⟩ := viewModel_of_bound hbind hrow hpost hkept
  have hrun : Run (ofPartial step) {} (pre ++ .cellForItemAt cell row :: post) t :=
    hpre.append ((Run.single hbind).append hpost)
  have hdataset : (t.cells cell).chart = some
      (observed gauge (u.telemetry.engine.current :: since.map fun p => some p.1)).dataset := by
    rw [EngineDataCollectionViewCell.chart, hown hchart, hviewModel]
    rfl
  have htenths : ∀ p ∈ u.telemetry.engine.current :: since.map fun p => some p.1,
      ∀ point ∈ p, point.InTenths := by
    intro p hp point hpoint
    rcases List.mem_cons.1 hp with rfl | hp
    · obtain ⟨labels, hlabels, -⟩ := telemetry_run hpre
      exact Telemetry.inTenths_current hlabels point hpoint
    · obtain ⟨published, hmem, rfl⟩ := List.mem_map.1 hp
      obtain rfl := Option.some.inj hpoint
      exact inTenths_published hrun published (hpublished ▸ List.mem_append_right _ hmem)
  have hsamples : samples gauge (u.telemetry.engine.current :: since.map fun p => some p.1) =
      samplesSince gauge (points pre).length (points (pre ++ .cellForItemAt cell row :: post)) := by
    calc samples gauge (u.telemetry.engine.current :: since.map fun p => some p.1)
        = (u.telemetry.engine.current :: since.map fun p => some p.1).filterMap fun p =>
            (p.bind fun p => p.field (readKey gauge)).bind Value.asDouble := by
          refine List.filterMap_congr fun p hp => ?_
          rw [EngineDataCollectionViewCellViewModel.numberValue_eq (htenths p hp),
            item_eq_field]
      _ = ((u.telemetry.engine.current :: since.map fun p => some p.1).map fun p =>
            p.bind fun p => p.field (readKey gauge)).filterMap fun value =>
              value.bind Value.asDouble := by rw [List.filterMap_map]; rfl
      _ = samplesSince gauge (points pre).length _ := by
          rw [map_field_delivered hpre hrun hpublished, List.filterMap_map]
          rfl
  rw [hdataset, EngineDataCollectionViewCellViewModel.observed_eq hchart,
    EngineDataCollectionViewCellViewModel.shown, hsamples]

theorem chart_of_bound_basicPacket :
    ∃ t, Run (ofPartial step) {} ([basicPacket] ++ .cellForItemAt 3 0 :: [basicPacket]) t ∧
      (t.cells 3).chart = some ((entries (samplesSince .rpm (points [basicPacket]).length
        (points ([basicPacket] ++ .cellForItemAt 3 0 :: [basicPacket])))).rtake
          maxChartDatapoints) := by
  have hrun : Run (ofPartial step) {} ([basicPacket] ++ .cellForItemAt 3 0 :: [basicPacket]) _ :=
    Run.of_foldlM rfl
  obtain ⟨u, hpre, h⟩ := hrun.append_inv
  obtain ⟨v, hbind, hpost⟩ := h.cons_inv
  exact ⟨_, hrun, chart_of_bound hpre hbind rfl rfl hpost rfl⟩

/-! ## Charts that stay -/

theorem shouldDisplayChart_ofGauge (gauge : EngineDataItem) (p : Option EngineDataPoint) :
    ((ofGauge gauge).observe gauge p).shouldDisplayChart = gauge.shouldDisplayChart :=
  (value_observe (ofGauge gauge) gauge p).2

/-- A gauge without a chart leaves the chart of its cell alone. -/
theorem chart_bind (cell : EngineDataCollectionViewCell) (p : Option EngineDataPoint)
    (hgauge : gauge.shouldDisplayChart = false) :
    (cell.bind gauge p).chart = cell.chart ∧ (cell.bind gauge p).chartData ≠ some .own := by
  have hdata : (cell.bind gauge p).chartData = cell.chart.map .released := by
    refine if_neg ?_
    rw [shouldDisplayChart_ofGauge, hgauge]
    exact Bool.false_ne_true
  rw [EngineDataCollectionViewCell.chart, hdata]
  cases cell.chart with
  | none => exact ⟨rfl, by simp⟩
  | some dataset => exact ⟨rfl, by simp⟩

theorem chart_bind_of_shouldDisplayChart (cell : EngineDataCollectionViewCell)
    (p : Option EngineDataPoint) (hgauge : gauge.shouldDisplayChart = true) :
    (cell.bind gauge p).chart = some ((ofGauge gauge).observe gauge p).dataset := by
  have hdata : (cell.bind gauge p).chartData = some .own :=
    if_pos ((shouldDisplayChart_ofGauge gauge p).trans hgauge)
  rw [EngineDataCollectionViewCell.chart, hdata]
  rfl

theorem chart_observe {cell : EngineDataCollectionViewCell} (p : Option EngineDataPoint)
    (h : cell.chartData ≠ some .own) :
    (cell.observe p).chart = cell.chart ∧ (cell.observe p).chartData ≠ some .own := by
  cases hviewModel : cell.viewModel with
  | none =>
    rw [EngineDataCollectionViewCell.observe, hviewModel]
    exact ⟨rfl, h⟩
  | some bound =>
    rw [EngineDataCollectionViewCell.observe, hviewModel]
    refine ⟨?_, h⟩
    cases hdata : cell.chartData with
    | none => simp only [EngineDataCollectionViewCell.chart, hdata]
    | some data =>
      cases data with
      | own => exact (h hdata).elim
      | released dataset => simp only [EngineDataCollectionViewCell.chart, hdata]

theorem isSome_chart_observe (cell : EngineDataCollectionViewCell) (p : Option EngineDataPoint) :
    (cell.observe p).chart.isSome = cell.chart.isSome := by
  by_cases hown : cell.chartData = some .own
  · cases hviewModel : cell.viewModel with
    | none => rw [EngineDataCollectionViewCell.observe, hviewModel]
    | some bound =>
      simp only [EngineDataCollectionViewCell.observe, EngineDataCollectionViewCell.chart,
        hviewModel, hown, Option.map_some, Option.isSome_some]
  · rw [(chart_observe p hown).1]

/-- A cell shows a chart once it was bound to a gauge that has one. -/
theorem isSome_chart_run (h : Run (ofPartial step) {} events t) (cell : ℕ) :
    (t.cells cell).chart.isSome = true ↔
      ∃ gauge ∈ bindings cell events, gauge.shouldDisplayChart = true := by
  induction h with
  | nil => simp [bindings, EngineDataCollectionViewCell.chart]
  | @snoc events e s t _ hs ih =>
    rw [bindings_concat]
    rcases cell_cases hs cell with ⟨gauge, he, -, -, hcell⟩ | ⟨he, -, -, hcell⟩ |
      ⟨he, p, q, point, -, -, -, hcell⟩
    · rw [hcell, he, Option.toList_some]
      cases hgauge : gauge.shouldDisplayChart with
      | false =>
        rw [(chart_bind _ _ hgauge).1, ih]
        simp [hgauge]
      | true =>
        rw [chart_bind_of_shouldDisplayChart _ _ hgauge]
        exact iff_of_true rfl ⟨gauge, by simp, hgauge⟩
    · rw [hcell, he, Option.toList_none, List.append_nil, ih]
    · rw [hcell, isSome_chart_observe, he, Option.toList_none, List.append_nil, ih]

/-- **A gauge without a chart shows the chart of another.** From the moment at which a cell is
handed out for a gauge without a chart, and as long as it is for none that has one, the chart of
the cell stays as it was, whatever is published; and there is one exactly where the cell was
bound to a gauge with a chart before. -/
theorem chart_kept {pre : List Event} (hpre : Run (ofPartial step) {} pre u)
    (hbind : u.step (.cellForItemAt cell row) = some v)
    (hrow : EngineDataItem.ofRawValue row = some gauge)
    (hgauge : gauge.shouldDisplayChart = false) (hpost : Run (ofPartial step) v post t)
    (hkept : ∀ gauge ∈ bindings cell post, gauge.shouldDisplayChart = false) :
    (t.cells cell).chart = (u.cells cell).chart ∧
      ((t.cells cell).chart.isSome = true ↔
        ∃ gauge ∈ bindings cell pre, gauge.shouldDisplayChart = true) := by
  have hchart : (t.cells cell).chart = (u.cells cell).chart ∧
      (t.cells cell).chartData ≠ some .own := by
    induction hpost with
    | nil =>
      obtain rfl := Option.some.inj hbind
      simp only [cellForItemAt, hrow, Function.update_self]
      exact chart_bind _ _ hgauge
    | @snoc events e s t _ hs ih =>
      rw [bindings_concat, List.forall_mem_append] at hkept
      obtain ⟨hchart, hdata⟩ := ih hkept.1
      rcases cell_cases hs cell with ⟨gauge', he, -, -, hcell⟩ | ⟨-, -, -, hcell⟩ |
        ⟨-, p, q, point, -, -, -, hcell⟩
      · have hgauge' : gauge'.shouldDisplayChart = false := hkept.2 gauge' (by rw [he]; simp)
        have hbound := chart_bind (s.cells cell) s.telemetry.engine.current hgauge'
        rw [hcell]
        exact ⟨hbound.1.trans hchart, hbound.2⟩
      · rw [hcell]
        exact ⟨hchart, hdata⟩
      · have hobserved := chart_observe (some point) hdata
        rw [hcell]
        exact ⟨hobserved.1.trans hchart, hobserved.2⟩
  exact ⟨hchart.1, by rw [hchart.1, isSome_chart_run hpre]⟩

/-- The cell of the rpm is handed out for the starter switch. -/
theorem chart_kept_starterSwitch :
    ∃ u t, Run (ofPartial step) {} [.cellForItemAt 3 0, basicPacket] u ∧
      Run (ofPartial step) u [.cellForItemAt 3 30, basicPacket] t ∧
      (t.cells 3).chart = (u.cells 3).chart ∧
        ((t.cells 3).chart.isSome = true ↔
          ∃ gauge ∈ bindings 3 [.cellForItemAt 3 0, basicPacket],
            gauge.shouldDisplayChart = true) := by
  have hrun : Run (ofPartial step) {} ([.cellForItemAt 3 0, basicPacket] ++
      [.cellForItemAt 3 30, basicPacket]) _ := Run.of_foldlM rfl
  obtain ⟨u, hpre, h⟩ := hrun.append_inv
  obtain ⟨v, hbind, hpost⟩ := h.cons_inv
  exact ⟨u, _, hpre, h,
    chart_kept hpre hbind rfl rfl hpost (by simp [bindings, Event.binding, basicPacket])⟩

end Rx7.Dashboard
