/-!
Places for virtio-mmio devices on the board, and the bank of places the board has by default.
-/

namespace VirtioMmio.Board

/-- One register window and its interrupt. -/
structure Slot where
  base : UInt64
  size : UInt64
  intid : UInt32
  deriving DecidableEq, Repr, Inhabited

def bankBase : UInt64 := 0x0a000000
/-- Distance of two places of the bank, and the size of each. -/
def bankStride : UInt64 := 0x200
def bankSlots : Nat := 32
def bankFirstIntid : UInt32 := 48
/-- The first shared peripheral interrupt of the interrupt controller. -/
def sharedInterruptBase : UInt32 := 32
/-- The first private peripheral interrupt of the interrupt controller. -/
def privateInterruptBase : UInt32 := 16
def ramBase : UInt64 := 0x40000000

/-- The place with a given number in the default bank. -/
def slot (index : Nat) : Option Slot :=
  if index < bankSlots then
    some ⟨bankBase + UInt64.ofNat index * bankStride, bankStride,
      bankFirstIntid + UInt32.ofNat index⟩
  else none

/-- The whole default bank, lowest address first. -/
def bank : List Slot :=
  (List.range bankSlots).filterMap slot

end VirtioMmio.Board
