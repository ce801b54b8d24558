import Rx7.Foundations.Transition
import Rx7.Foundations.LastWrite
import Rx7.Foundations.LastEntry
import Rx7.Foundations.LittleEndian
import Rx7.Foundations.Tiling
import Rx7.Foundations.Loop
import Rx7.Foundations.Queues
import Rx7.Foundations.Ledger
import Rx7.Foundations.Outbox
import Rx7.Foundations.Sections
import Rx7.Foundations.Broadcast
import Rx7.Foundations.Replay
import Rx7.Foundations.Window
import Rx7.Foundations.Deferred
import Rx7.Foundations.Rounding
import Rx7.Swift.Data
import Rx7.Swift.Text
import Rx7.Engine.Point
import Rx7.Engine.Decode
import Rx7.Engine.Frame
import Rx7.Engine.StateManager
import Rx7.Engine.BasicFrame
import Rx7.Engine.Fixes
import Rx7.Engine.Location
import Rx7.Engine.Ignored
import Rx7.Engine.Gauge
import Rx7.Engine.Chart
import Rx7.Engine.Drive
import Rx7.Layout.Codec
import Rx7.Layout.Truncated
import Rx7.Layout.Names
import Rx7.Swift.Array
import Rx7.Editor.ViewModel
import Rx7.Editor.Layout
import Rx7.Editor.Rows
import Rx7.Editor.Session
import Rx7.Editor.App
import Rx7.Editor.Saves
import Rx7.Editor.Table
import Rx7.Editor.Screen
import Rx7.Bluetooth.Config
import Rx7.Bluetooth.Manager
import Rx7.Bluetooth.Steps
import Rx7.Bluetooth.Reads
import Rx7.Bluetooth.Frames
import Rx7.Bluetooth.Writes
import Rx7.Bluetooth.Listeners
import Rx7.Bluetooth.Connection
import Rx7.Bluetooth.Contract
import Rx7.Layout.Store
import Rx7.Display.Page
import Rx7.Display.Dashboard
import Rx7.Display.Cells
import Rx7.Display.Labels
import Rx7.Threshold.Manager
import Rx7.Threshold.Editor
import Rx7.Bluetooth.Calls
import Rx7.Bluetooth.Waiting
import Rx7.Bluetooth.Values
import Rx7.Bluetooth.Log
import Rx7.Bluetooth.Transfers
import Rx7.Program.Parts
import Rx7.Program.Steps
import Rx7.Program.Display
import Rx7.Program.Thresholds
import Rx7.Program.Editors
import Rx7.Program.Saving
import Rx7.Program.Reads
import Rx7.Program.Requests
import Rx7.Program.Crashes
