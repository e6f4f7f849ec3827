import VirtioMmio.Dma.Space

/-!
Moving bytes between a buffer of the device and the buffers of a chain. Both directions go through
the chain in order and use each of its buffers from the start; a transfer ends when the device's
buffer or the chain is used up.
-/

namespace VirtioMmio.Queue

open Vring (Descriptor)
open Dma (Space)

/-- Fill `rest` from the front with the contents of the buffers. `filled` holds the bytes filled
before; the answer is the whole of the device's buffer in the end, with everything that was filled
before a refusal, and the number of bytes filled. -/
def gather (s : Space) :
    List Descriptor → List UInt8 → List UInt8 → List UInt8 × Except MemoryError Nat
  | [], filled, rest => (filled ++ rest, .ok filled.length)
  | d :: buffers, filled, rest =>
    if rest.isEmpty then (filled, .ok filled.length)
    else
      let n := min d.len.toNat rest.length
      match s.read d.addr n with
      | .error e => (filled ++ rest, .error e)
      | .ok bytes => gather s buffers (filled ++ bytes) (rest.drop n)

/-- Put `rest` into the buffers. `copied` counts the bytes put before; the answer is guest RAM in
the end, with everything that was put before a refusal, and the number of bytes put. -/
def scatter (s : Space) :
    List Descriptor → Nat → List UInt8 → Memory.Ram × Except MemoryError Nat
  | [], copied, _ => (s.ram, .ok copied)
  | d :: buffers, copied, rest =>
    if rest.isEmpty then (s.ram, .ok copied)
    else
      let n := min d.len.toNat rest.length
      match s.write d.addr (rest.take n) with
      | .error e => (s.ram, .error e)
      | .ok ram => scatter { s with ram } buffers (copied + n) (rest.drop n)

end VirtioMmio.Queue
