import VirtioMmio.Dma.Space
import VirtioMmio.Queue.Error

/-!
Where the three rings of a queue lie. A layout is accepted if the size is a power of two within the
limit, every ring is aligned, and no two rings share a byte; before the queue is used each ring must
also be backed with the access the device needs.
-/

namespace VirtioMmio.Vring

/-- A power of two, one included. -/
def isPowerOfTwo (n : Nat) : Bool :=
  n == 1 <<< n.log2

/-- The size of a queue and the addresses of its rings. -/
structure Layout where
  size : UInt16
  desc : UInt64
  avail : UInt64
  used : UInt64
  deriving DecidableEq, Repr

namespace Layout

def addr (l : Layout) : Part → UInt64
  | .descriptor => l.desc
  | .available => l.avail
  | .used => l.used

/-- Where a ring ends, cut to the largest address. -/
def stop (l : Layout) (p : Part) : Nat :=
  min ((l.addr p).toNat + p.bytes l.size) 0xffff_ffff_ffff_ffff

def isAligned (l : Layout) (p : Part) : Bool :=
  (l.addr p).toNat % p.alignment == 0

def meet (l : Layout) (p q : Part) : Bool :=
  (l.addr p).toNat < l.stop q && (l.addr q).toNat < l.stop p

/-- The layout with a given size and addresses, or the first reason against it. -/
def new (size max : UInt16) (desc avail used : UInt64) : Except QueueError Layout :=
  let l : Layout := ⟨size, desc, avail, used⟩
  if !isPowerOfTwo size.toNat then .error (.badSize size)
  else if max < size then .error (.tooLarge size max)
  else
    match Part.all.find? fun p => !l.isAligned p with
    | some p => .error (.misaligned p (l.addr p))
    | none =>
      match Part.pairs.find? fun (p, q) => l.meet p q with
      | some (p, q) => .error (.overlap p q)
      | none => .ok l

/-- Refuse a ring that is not backed with the access the device needs. -/
def requireRing (l : Layout) (s : Dma.Space) (p : Part) : Except QueueError Unit :=
  match s.check (l.addr p) (p.bytes l.size) p.access with
  | .error e => .error (.unbacked p e)
  | .ok () => .ok ()

/-- Refuse a layout of which some ring is not backed. -/
def requireBacked (l : Layout) (s : Dma.Space) : Except QueueError Unit := do
  l.requireRing s .descriptor
  l.requireRing s .available
  l.requireRing s .used

end Layout

end VirtioMmio.Vring
