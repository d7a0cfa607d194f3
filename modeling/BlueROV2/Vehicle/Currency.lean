import BlueROV2.Firmware.Chronicle
import BlueROV2.Vehicle.Publication

/-!
# What is published was current

Library `Vehicle`. The chronicle of a run is kept beside the whole system. Every message that the
driver publishes is a sample or a status of it, which said what the Teensy had read of the IMU up
to then.
-/

namespace BlueROV2.Vehicle

open BlueROV2.Base BlueROV2.Base.History BlueROV2.Wire
open Driver (Params)
open Firmware (BNO085 CommandHandlers Current Happening Iteration Sample SensorAccuracy Told
  commandHandler handlerFor wordBytes)

/-- The sample or the status that is sent. -/
def sent : Happening → Option Telemetry
  | .imu (.read _ result) => result.map (.sample ·.sample)
  | .status accuracy mask => some (.status accuracy mask)
  | .imu .configured | .calibrated _ => none

/-! ### Packets and what they say -/

variable {handlers : CommandHandlers BNO085} {s s' : State} {i : Iteration} {log : List Happening}

/-- An iteration at whose status the clock has moved on. -/
def later : Iteration :=
  { uneventful with status := [{ Firmware.Moment.quiet with elapsed := 100 }] }

end BlueROV2.Vehicle
