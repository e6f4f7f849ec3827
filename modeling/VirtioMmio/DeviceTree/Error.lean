/-!
Why a device tree yields no device places.
-/

namespace VirtioMmio

inductive TreeError where
  -- The blob is no flattened device tree.
  | invalid
  -- A device node does not say where its registers are.
  | missingReg
  -- A device node has no interrupt that can be decoded.
  | missingInterrupt
  deriving DecidableEq, Repr

def TreeError.message : TreeError → String
  | .invalid => "blob is not a valid flattened device tree"
  | .missingReg => "virtio,mmio node has no reg property"
  | .missingInterrupt => "virtio,mmio node has no usable interrupts property"

end VirtioMmio
