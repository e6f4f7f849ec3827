import VirtioMmio.Transport.Basic

/-!
What a type of device lays down before any driver sees it.
-/

namespace VirtioMmio.Device

/-- Features that belong to every type of device. -/
def indirectFeature : UInt64 := 0x10000000
def version1Feature : UInt64 := 0x100000000

/-- The largest number of queues: doorbells are kept in one word of 64 bits. -/
def maxQueues : Nat := 64
/-- The largest queue that the split ring format allows. -/
def maxQueueSize : UInt16 := 32768
/-- The largest queue a type of device offers unless it lays down otherwise. -/
def defaultQueueSize : UInt16 := 256

/-- The identity of a device type, its own features, its queues, and its configuration block at
power-on with the ranges that the driver may write. -/
structure Profile where
  id : DeviceId
  features : UInt64
  queues : Nat
  maxQueueSize : UInt16 := defaultQueueSize
  config : List UInt8
  writable : List Config.Span := []
  deriving DecidableEq, Repr

end VirtioMmio.Device
