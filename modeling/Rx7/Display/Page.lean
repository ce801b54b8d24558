import Rx7.Bluetooth.Manager
import Rx7.Engine.Chart

/-!
# The home page and the gauges page

`HomeViewController` shows the state of the link and whether data is being received.
`EngineDataViewController` shows the state of the link, the lag of the latest data and where the
car is; the texts of the last two are set in blocks that it posts to the main queue. A label that
has not been set has the text of the storyboard (`none`).

Below them the gauges are cells of a collection view, which hands its cells out again for other
gauges. `EngineDataCollectionViewCell.setViewModel` is the observer of the cell's `viewModel`: the
title and the text are always set, the chart only where the gauge has one. The view model that was
there before is released, and the chart keeps its data set.
-/

namespace Rx7

open Bluetooth

structure HomeViewController where
  connectionStatus : Option String := none
  driveCodeLabel : Option String := none

namespace HomeViewController

variable (self : HomeViewController)

/-- The observer of the manager's `state`. -/
def observeState (state : BluetoothState) : HomeViewController :=
  { self with connectionStatus := some state.rawValue }

/-- The observer of `didBeginDrive`. -/
def observeDidBeginDrive (didBegin : Bool) : HomeViewController :=
  if didBegin then { self with driveCodeLabel := some "Receiving Data" } else self

/-- `setupObservers`, where the observed values are these at present. -/
def setupObservers (state : BluetoothState) (didBeginDrive : Bool) : HomeViewController :=
  (self.observeState state).observeDidBeginDrive didBeginDrive

end HomeViewController

/-- A block that the gauges page posts to the main queue, with what it captures. -/
inductive EngineDataViewController.Block
  | lag (estimatedLag : ℤ)
  | coordinates (location : CLLocationCoordinate2D)
  deriving DecidableEq

structure EngineDataViewController where
  statusLabel : Option String := none
  lagLabel : Option String := none
  /-- The location that the label spells. -/
  coordinatesLabel : Option CLLocationCoordinate2D := none
  /-- The blocks in the main queue, the next one first. -/
  posted : List EngineDataViewController.Block := []

namespace EngineDataViewController

variable (self : EngineDataViewController)

def post (block : Block) : EngineDataViewController :=
  { self with posted := self.posted ++ [block] }

/-- `updateEstimatedLag(from:)`, called `now` milliseconds after 1970. -/
def updateEstimatedLag (engineData : EngineDataPoint) (now : ℤ) : EngineDataViewController :=
  match engineData.time with
  | none => self
  | some dataTime =>
    let estimatedLag := now - dataTime
    let estimatedLag := if estimatedLag < 0 then 0 else estimatedLag
    self.post (.lag estimatedLag)

/-- `updateCoordinates(from:)`. -/
def updateCoordinates (engineData : EngineDataPoint) : EngineDataViewController :=
  match engineData.location with
  | none => self
  | some location => self.post (.coordinates location)

/-- The observer of `current`. -/
def observeCurrent (engineData : Option EngineDataPoint) (now : ℤ) : EngineDataViewController :=
  match engineData with
  | none => self
  | some engineData => (self.updateEstimatedLag engineData now).updateCoordinates engineData

/-- The observer of the manager's `state`. -/
def observeState (state : BluetoothState) : EngineDataViewController :=
  { self with statusLabel := some s!"Status: {state.rawValue}" }

/-- `setupObservers`, where the observed values are these at present. -/
def setupObservers (current : Option EngineDataPoint) (now : ℤ) (state : BluetoothState) :
    EngineDataViewController :=
  (self.observeCurrent current now).observeState state

/-- Run a block of the main queue. -/
def run : Block → EngineDataViewController
  | .lag estimatedLag => { self with lagLabel := some s!"Est. Lag: {estimatedLag}ms" }
  | .coordinates location => { self with coordinatesLabel := some location }

/-- The main queue runs its next block, if there is one. -/
def runNext : EngineDataViewController :=
  match self.posted with
  | [] => self
  | block :: posted => { self with posted }.run block

end EngineDataViewController

/-- What a chart draws: the data set of the cell's view model, or that of one that was released. -/
inductive ChartData
  | own
  | released (dataset : List ChartDataEntry)

structure EngineDataCollectionViewCell where
  title : Option String := none
  value : Option String := none
  chartData : Option ChartData := none
  /-- The view model, with the gauge it is of. -/
  viewModel : Option (EngineDataItem × EngineDataCollectionViewCellViewModel) := none

namespace EngineDataCollectionViewCell

open EngineDataCollectionViewCellViewModel (ofGauge)

variable (self : EngineDataCollectionViewCell) (gauge : EngineDataItem)

/-- The entries that the chart draws. -/
def chart : Option (List ChartDataEntry) :=
  match self.chartData with
  | none => none
  | some .own => self.viewModel.map fun (_, viewModel) => viewModel.dataset
  | some (.released dataset) => some dataset

/-- The observer of `viewModel`. The text is the replayed `value`. -/
def setViewModel (viewModel : EngineDataCollectionViewCellViewModel) :
    EngineDataCollectionViewCell where
  title := some gauge.title
  value := some viewModel.value
  chartData := if viewModel.shouldDisplayChart then some .own else self.chart.map .released
  viewModel := some (gauge, viewModel)

/-- The cell is handed out for a gauge: its view model is made, and observes `current`. -/
def bind (current : Option EngineDataPoint) : EngineDataCollectionViewCell :=
  self.setViewModel gauge ((ofGauge gauge).observe gauge current)

/-- `current` is sent a value, which the view model observes, and the cell the text. -/
def observe (engineData : Option EngineDataPoint) : EngineDataCollectionViewCell :=
  match self.viewModel with
  | none => self
  | some (gauge, viewModel) =>
    let viewModel := viewModel.observe gauge engineData
    { self with value := some viewModel.value, viewModel := some (gauge, viewModel) }

end EngineDataCollectionViewCell

end Rx7
