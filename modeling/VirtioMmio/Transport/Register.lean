import VirtioMmio.Queue.Registers

/-!
The registers of a virtio-mmio window and their offsets. Main statement: `ofOffset?_offset`, by
which no two registers share an offset.
-/

namespace VirtioMmio.Transport

open Queue (RingAddress Half)

/-- A register in front of the configuration space. -/
inductive Register where
  | magic
  | version
  | deviceId
  | vendorId
  | offeredFeatures
  | offeredFeaturesWindow
  | driverFeatures
  | driverFeaturesWindow
  | queueSelect
  | queueSizeMax
  | queueSize
  | queueReady
  | queueNotify
  | interruptStatus
  | interruptAcknowledge
  | status
  | queueAddress (ring : RingAddress) (half : Half)
  | configGeneration
  deriving DecidableEq, Repr

namespace Register

def offset : Register → UInt64
  | .magic => 0x000
  | .version => 0x004
  | .deviceId => 0x008
  | .vendorId => 0x00c
  | .offeredFeatures => 0x010
  | .offeredFeaturesWindow => 0x014
  | .driverFeatures => 0x020
  | .driverFeaturesWindow => 0x024
  | .queueSelect => 0x030
  | .queueSizeMax => 0x034
  | .queueSize => 0x038
  | .queueReady => 0x044
  | .queueNotify => 0x050
  | .interruptStatus => 0x060
  | .interruptAcknowledge => 0x064
  | .status => 0x070
  | .queueAddress .desc .low => 0x080
  | .queueAddress .desc .high => 0x084
  | .queueAddress .driver .low => 0x090
  | .queueAddress .driver .high => 0x094
  | .queueAddress .device .low => 0x0a0
  | .queueAddress .device .high => 0x0a4
  | .configGeneration => 0x0fc

/-- Every register, lowest offset first. -/
def all : List Register :=
  [.magic, .version, .deviceId, .vendorId, .offeredFeatures, .offeredFeaturesWindow,
    .driverFeatures, .driverFeaturesWindow, .queueSelect, .queueSizeMax, .queueSize, .queueReady,
    .queueNotify, .interruptStatus, .interruptAcknowledge, .status,
    .queueAddress .desc .low, .queueAddress .desc .high, .queueAddress .driver .low,
    .queueAddress .driver .high, .queueAddress .device .low, .queueAddress .device .high,
    .configGeneration]

def ofOffset? (offset : UInt64) : Option Register :=
  all.find? fun r => r.offset == offset

theorem ofOffset?_offset (r : Register) : ofOffset? r.offset = some r := by
  cases r with
  | queueAddress ring half => cases ring <;> cases half <;> decide
  | _ => decide

theorem offset_of_ofOffset? {offset : UInt64} {r : Register} (found : ofOffset? offset = some r) :
    r.offset = offset := by
  have same := List.find?_some found
  simpa using same

end Register

end VirtioMmio.Transport
