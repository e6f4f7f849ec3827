import VirtioMmio.Device.Profile

/-!
Console devices: a single terminal, whose size is published if the host knows it.
-/

namespace VirtioMmio.Kind

open Device (Profile)

structure TerminalSize where
  cols : UInt16
  rows : UInt16
  deriving DecidableEq, Repr

/-- A terminal as the driver is to see it. -/
structure Console where
  size : Option TerminalSize
  deriving DecidableEq, Repr

namespace Console

def sizeFeature : UInt64 := 0x1
def receiveQueue : UInt16 := 0
def transmitQueue : UInt16 := 1

/-- The bytes of a size: columns, then rows. -/
def encodeSize (size : TerminalSize) : List UInt8 :=
  LittleEndian.encode 2 size.cols.toNat ++ LittleEndian.encode 2 size.rows.toNat

/-- The configuration block: size, one terminal, no emergency character. -/
def encode (c : Console) : List UInt8 :=
  encodeSize (c.size.getD ⟨0, 0⟩) ++ LittleEndian.encode 4 1 ++ LittleEndian.encode 4 0

/-- A terminal has one queue for each direction. -/
def profile (c : Console) : Profile where
  id := .console
  features := if c.size.isSome then sizeFeature else 0
  queues := 2
  config := c.encode

end Console

end VirtioMmio.Kind
