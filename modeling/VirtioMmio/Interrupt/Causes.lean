/-!
Causes of a device interrupt, as the driver sees them in the interrupt status register.
-/

namespace VirtioMmio.Interrupt

structure Causes where
  -- A used buffer was returned.
  ring : Bool
  -- The configuration of the device changed, or the device needs a reset.
  config : Bool
  deriving DecidableEq, Repr, Inhabited

namespace Causes

def nothing : Causes := ⟨false, false⟩
def ringOnly : Causes := ⟨true, false⟩
def configOnly : Causes := ⟨false, true⟩
def all : Causes := ⟨true, true⟩

def isEmpty (c : Causes) : Bool := !c.ring && !c.config

def union (c d : Causes) : Causes := ⟨c.ring || d.ring, c.config || d.config⟩

def without (c d : Causes) : Causes := ⟨c.ring && !d.ring, c.config && !d.config⟩

/-- The two low bits of a register value; the others name no cause. -/
def ofBits (v : UInt32) : Causes := ⟨v &&& 1 != 0, v &&& 2 != 0⟩

def bits (c : Causes) : UInt32 := (if c.ring then 1 else 0) ||| (if c.config then 2 else 0)

theorem ofBits_bits (c : Causes) : ofBits c.bits = c := by
  obtain ⟨a, b⟩ := c
  cases a <;> cases b <;> rfl

end Causes

end VirtioMmio.Interrupt
