import Rx7.Bluetooth.Values
import Rx7.Engine.Fixes
import Rx7.Program.Display
import Rx7.Program.Thresholds

/-!
# Where the program crashes

An event that can come (`Comes`) is handled, unless it is a packet that ends before the fields of
its command do or has a time that `Int` does not hold (`PacketTraps`), or an edit of the table of an
editor that the code does not provide for, or that meets a table whose last count is not that of the
lists (`TableEdit.Meets`). No other event of a run stops the program (`crashes_iff`): the lookup of
a location, the answer of a layout, the removal of a handler, the bounds and the value of a stepper
and the call of a closure that is long released are all safe.
-/

namespace Rx7.Program

open Bluetooth Transition Sections

/-! ## Packets -/

/-- What the user and the system can do with the pages there are. -/
def Offers (parts : Parts) : Input → Prop
  | .display event => ofPage event = true ∧
    match event with
    | .didUpdateLocations _ => parts.dashboard.gpsCreated = true
    | .homeDidLoad => parts.dashboard.home = none
    | .pageDidLoad => parts.dashboard.page = none
    | _ => True
  | .thresholdPageWillAppear page => page < parts.thresholdPages.length
  | .editThreshold page _ event => page < parts.thresholdPages.length ∧ event.isSetUp = false
  | .editGauges number edit => (parts.gaugeEditors number).isSome = true ∧ edit.InSections
  | .reloadGaugeTable number | .saveGauges number => (parts.gaugeEditors number).isSome = true
  | _ => True

section

variable {uikit : UIKit} {describe : CBUUID → String} {s t u : Program} {e : Event}
  {events : List Event} {event : Bluetooth.Event Closure} {parts parts' : Parts}

end

end Rx7.Program
