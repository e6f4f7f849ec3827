import VirtioMmio.Memory.Error
import VirtioMmio.Vring.Part

/-!
Why a queue cannot be brought up, or an operation on it fails.
-/

namespace VirtioMmio

inductive QueueError where
  | badSize (size : UInt16)
  | tooLarge (size max : UInt16)
  | misaligned (ring : Vring.Part) (addr : UInt64)
  | unbacked (ring : Vring.Part) (source : MemoryError)
  | overlap (first second : Vring.Part)
  | descriptorIndex (index size : UInt16)
  | chainTooLong (size : UInt16)
  | availOverrun (entries : UInt16)
  | badIndirect
  | orderViolation
  -- A ring or a buffer of the queue could not be accessed.
  | buffer (source : MemoryError)
  | failed
  | retired
  deriving DecidableEq, Repr

namespace QueueError

def message : QueueError → String
  | .badSize size => "queue size " ++ toString size.toNat ++ " is not a non-zero power of two"
  | .tooLarge size max =>
    "queue size " ++ toString size.toNat ++ " exceeds the maximum of " ++ toString max.toNat
  | .misaligned ring addr => ring.name ++ " ring at " ++ hex addr.toNat ++ " is misaligned"
  | .unbacked ring source =>
    ring.name ++ " ring is not backed by guest memory: " ++ source.message
  | .overlap first second => first.name ++ " and " ++ second.name ++ " rings overlap"
  | .descriptorIndex index size =>
    "descriptor index " ++ toString index.toNat ++ " out of range for a table of "
      ++ toString size.toNat
  | .chainTooLong size => "descriptor chain longer than " ++ toString size.toNat ++ " entries"
  | .availOverrun entries => "available index moved by " ++ toString entries.toNat ++ " entries"
  | .badIndirect => "malformed indirect descriptor"
  | .orderViolation => "device-readable descriptor follows a device-writable one"
  | .buffer source => "descriptor buffer is not accessible: " ++ source.message
  | .failed => "queue has failed and needs a device reset"
  | .retired => "queue was retired by a device reset"

/-- The refused memory access behind a failure. -/
def source? : QueueError → Option MemoryError
  | .unbacked _ source => some source
  | .buffer source => some source
  | _ => none

end QueueError

end VirtioMmio
