import VirtioMmio.Dma.Mapping
import VirtioMmio.Interrupt.Line

/-!
The calls a device makes on the parties around it: the interrupt controller, the backend that does
the actual input and output, and the IOMMU. A record of calls keeps them in the order in which they
were made, refused ones included.
-/

namespace VirtioMmio.Backend

inductive BackendCall where
  -- The driver finished its set-up: the agreed features, and for each queue the number of its
  -- virtqueue, if the driver brought it up.
  | driverOk (features : UInt64) (queues : List (Option Nat))
  -- The driver rang for a queue.
  | notify (queue : UInt16)
  -- The driver reset the device.
  | reset
  -- The device is taken down for good.
  | shutdown
  | attach
  | detach
  | map (cls : UInt16) (mapping : Dma.Mapping)
  | unmap (cls : UInt16) (mapping : Dma.Mapping)
  deriving DecidableEq, Repr

inductive IommuCall where
  | attach
  | detach
  | map (iova : UInt64) (len : Nat) (rights : Memory.Rights)
  | unmap (mapping : Dma.Mapping)
  deriving DecidableEq, Repr

/-- A call on any of the three parties. -/
inductive Call where
  | line (call : Interrupt.LineCall)
  | backend (call : BackendCall)
  | iommu (call : IommuCall)
  deriving DecidableEq, Repr

end VirtioMmio.Backend
