import BlueROV2.Base.Memory
import BlueROV2.Base.Transition
import BlueROV2.Firmware.Rates
import BlueROV2.Firmware.Cobs
import BlueROV2.Driver.Cobs
import BlueROV2.Firmware.Client
import BlueROV2.Driver.Packet
import BlueROV2.Driver.Command
import BlueROV2.Link.Commands
import BlueROV2.Link.Stuffing
import BlueROV2.Link.Acceptance
import BlueROV2.Link.Corruption
import BlueROV2.Link.Telemetry
import BlueROV2.Link.Writing
import BlueROV2.Mavlink.Display
import BlueROV2.Session.Invariant
import BlueROV2.Session.Cycles
import BlueROV2.Driver.Dispatching
import BlueROV2.Driver.Lifetimes
import BlueROV2.Firmware.Recovery
import BlueROV2.Firmware.Bounds
import BlueROV2.Firmware.Failures
import BlueROV2.Firmware.Pacing
import BlueROV2.Session.Interference
import BlueROV2.Session.Termination
import BlueROV2.Base.Simulation
import BlueROV2.Vehicle.Currency
import BlueROV2.Vehicle.Progress
import BlueROV2.Tool.Calibration
import BlueROV2.Tool.Vehicle
