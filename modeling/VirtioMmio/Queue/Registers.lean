import VirtioMmio.Bytes.Halves

/-!
A queue as the driver programs it through registers. The registers can be written freely until the
queue is brought up; from then on they stand still until the device is reset.
-/

namespace VirtioMmio.Queue

inductive RingAddress where
  | desc
  | driver
  | device
  deriving DecidableEq, Repr

inductive Half where
  | low
  | high
  deriving DecidableEq, Repr

/-- The registers of one queue. `live` is the number of the virtqueue that the registers were
brought up as, among all virtqueues the machine ever had. -/
structure Registers where
  size : UInt16 := 0
  ready : Bool := false
  desc : UInt64 := 0
  driver : UInt64 := 0
  device : UInt64 := 0
  live : Option Nat := none
  deriving DecidableEq, Repr

namespace Registers

def blank : Registers := {}

def isUp (r : Registers) : Bool := r.live.isSome

def addr (r : Registers) : RingAddress → UInt64
  | .desc => r.desc
  | .driver => r.driver
  | .device => r.device

/-- Write the size. A value beyond 16 bits can never be good and becomes zero. -/
def writeSize (r : Registers) (v : UInt32) : Registers :=
  if r.isUp then r
  else { r with size := if v.toNat < 0x10000 then v.toUInt16 else 0 }

def withHalf (word : UInt64) (half : Half) (v : UInt32) : UInt64 :=
  match half with
  | .low => Halves.withLow word v
  | .high => Halves.withHigh word v

def writeAddr (r : Registers) (ring : RingAddress) (half : Half) (v : UInt32) : Registers :=
  if r.isUp then r
  else
    match ring with
    | .desc => { r with desc := withHalf r.desc half v }
    | .driver => { r with driver := withHalf r.driver half v }
    | .device => { r with device := withHalf r.device half v }

def markReady (r : Registers) : Registers := { r with ready := true }
def unmarkReady (r : Registers) : Registers := { r with ready := false }

end Registers

end VirtioMmio.Queue
