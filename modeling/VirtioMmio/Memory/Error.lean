import VirtioMmio.Bytes.Hex
import VirtioMmio.Memory.Rights

/-!
Why an access to memory is refused.
-/

namespace VirtioMmio

inductive MemoryError where
  -- No single region holds the whole range.
  | unmapped (addr : UInt64) (len : Nat)
  -- The range is there but does not grant the access.
  | permission (addr : UInt64) (len : Nat) (needed : Memory.Rights)
  -- The range leaves a view of `size` bytes.
  | outOfBounds (offset len size : Nat)
  -- A region to be added shares bytes with an existing one.
  | overlap (base : UInt64) (len : Nat)
  deriving DecidableEq, Repr

def MemoryError.message : MemoryError → String
  | .unmapped addr len =>
    "guest range " ++ hex addr.toNat ++ "+" ++ hex len ++ " is not backed by memory"
  | .permission addr len needed =>
    "guest range " ++ hex addr.toNat ++ "+" ++ hex len ++ " does not allow " ++ needed.describe
  | .outOfBounds offset len size =>
    "offset " ++ hex offset ++ "+" ++ hex len ++ " exceeds a " ++ hex size ++ "-byte view"
  | .overlap base len =>
    "region " ++ hex base.toNat ++ "+" ++ hex len ++ " overlaps an existing region"

end VirtioMmio
