import VirtioMmio.Bytes.Hex

/-!
Why an access to the register window is rejected.
-/

namespace VirtioMmio

/-- A rejected access. It changes nothing. -/
inductive AccessError where
  | badSize (offset : UInt64) (size : UInt8)
  | badOffset (offset : UInt64)
  | readOnly (offset : UInt64)
  | writeOnly (offset : UInt64)
  deriving DecidableEq, Repr

def AccessError.message : AccessError → String
  | .badSize offset size =>
    "unsupported access size " ++ toString size.toNat ++ " at offset " ++ hex offset.toNat
  | .badOffset offset => "offset " ++ hex offset.toNat ++ " does not name a register"
  | .readOnly offset => "register at " ++ hex offset.toNat ++ " is read-only"
  | .writeOnly offset => "register at " ++ hex offset.toNat ++ " is write-only"

end VirtioMmio
