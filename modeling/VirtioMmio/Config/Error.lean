import VirtioMmio.Bytes.Hex

/-!
Why a device cannot be configured as asked.
-/

namespace VirtioMmio

inductive ConfigError where
  -- The queue size limit is no power of two up to 32768.
  | queueSize (size : UInt16)
  | tooManyQueues (count : Nat)
  -- Bytes past the end of the configuration block, or a block past the end of its window.
  | configTooLarge (len : Nat)
  | misaligned (base : UInt64)
  | reservedCid (cid : UInt64)
  deriving DecidableEq, Repr

def ConfigError.message : ConfigError → String
  | .queueSize size =>
    "maximum queue size " ++ toString size.toNat ++ " is not a power of two in 1..=32768"
  | .tooManyQueues count =>
    "device needs " ++ toString count ++ " queues, more than the transport supports"
  | .configTooLarge len =>
    "config block of " ++ toString len ++ " bytes does not fit the MMIO window"
  | .misaligned base => "MMIO window at " ++ hex base.toNat ++ " is not 0x200-aligned"
  | .reservedCid cid => "context ID " ++ toString cid.toNat ++ " is reserved"

end VirtioMmio
