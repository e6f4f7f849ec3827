import VirtioMmio.Bytes.Hex

/-!
Why an operation on the IOMMU of a device is refused.
-/

namespace VirtioMmio

inductive IommuError where
  | notAttached
  | alreadyAttached
  | attachFailed
  | unknownClass (cls : UInt16)
  | alreadyMapped (cls : UInt16)
  | notMapped (cls : UInt16)
  -- An empty range, or one whose end is no address.
  | invalidRange (iova : UInt64) (len : Nat)
  | mapFailed (iova : UInt64) (len : Nat)
  | unmapFailed (iova : UInt64)
  deriving DecidableEq, Repr

def IommuError.message : IommuError → String
  | .notAttached => "no IOMMU is attached"
  | .alreadyAttached => "an IOMMU is already attached"
  | .attachFailed => "IOMMU refused to attach the device"
  | .unknownClass cls => "buffer class " ++ toString cls.toNat ++ " does not exist on this device"
  | .alreadyMapped cls => "buffer class " ++ toString cls.toNat ++ " is already mapped"
  | .notMapped cls => "buffer class " ++ toString cls.toNat ++ " is not mapped"
  | .invalidRange iova len =>
    "IOVA range " ++ hex iova.toNat ++ "+" ++ hex len ++ " is empty or wraps"
  | .mapFailed iova len => "mapping of " ++ hex iova.toNat ++ "+" ++ hex len ++ " failed"
  | .unmapFailed iova => "unmapping " ++ hex iova.toNat ++ " failed"

end VirtioMmio
