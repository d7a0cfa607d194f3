/-!
# Packet, device and command identifiers

Library `Wire`. `modules/teensy/lib/packet/packet_id.h`, `device_id.h` and `command.h`,
mirrored in `modules/autonomy_pi/ros/autonomy_teensy/include/autonomy_teensy/`.
Each is an `enum class` over `uint8_t` that both programs fill by casting a received byte,
so every byte is a value of the type and the enumerators are named constants.
-/

namespace BlueROV2.Wire

/-- Identifier for the packet payload data; `packet_id.h:13`. -/
structure PacketId where
  byte : UInt8
  deriving DecidableEq, Repr

/-- Device identifier of the sensor that sent the data; `device_id.h:10`. -/
structure DeviceId where
  byte : UInt8
  deriving DecidableEq, Repr

/-- Identifier for a command sent from the Pi to the Teensy; `command.h:13`. -/
structure CommandId where
  byte : UInt8
  deriving DecidableEq, Repr

/-- Result of executing a command, reported back to the Pi; `command.h:21`. -/
structure CommandResponse where
  byte : UInt8
  deriving DecidableEq, Repr

def PacketId.imuData : PacketId := ⟨0x01⟩
def PacketId.calStatus : PacketId := ⟨0x02⟩
def PacketId.command : PacketId := ⟨0x10⟩
def PacketId.commandResponse : PacketId := ⟨0x11⟩

def DeviceId.imu01 : DeviceId := ⟨0x01⟩

def CommandId.calibrationStart : CommandId := ⟨0x01⟩
def CommandId.calibrationSave : CommandId := ⟨0x02⟩
def CommandId.calibrationStop : CommandId := ⟨0x03⟩

def CommandResponse.ok : CommandResponse := ⟨0x00⟩
def CommandResponse.unknownCommand : CommandResponse := ⟨0x01⟩
def CommandResponse.sensorError : CommandResponse := ⟨0x02⟩
def CommandResponse.invalidState : CommandResponse := ⟨0x03⟩

end BlueROV2.Wire
