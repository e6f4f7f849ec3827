import VirtioMmio.Memory.Rights

/-!
The parts a split virtqueue is made of, and what each asks of the memory it lies in.
-/

namespace VirtioMmio.Vring

inductive Part where
  | descriptor
  | available
  | used
  deriving DecidableEq, Repr

namespace Part

/-- All three, in the order in which they are checked. -/
def all : List Part := [.descriptor, .available, .used]

/-- Every two of them, in the order in which they are checked. -/
def pairs : List (Part × Part) :=
  [(.descriptor, .available), (.descriptor, .used), (.available, .used)]

def name : Part → String
  | .descriptor => "descriptor"
  | .available => "available"
  | .used => "used"

/-- A ring starts at a multiple of this many bytes. -/
def alignment : Part → Nat
  | .descriptor => 16
  | .available => 16
  | .used => 4

/-- Bytes of a ring in a queue of a given size. A descriptor takes sixteen; the other two rings have
flags, an index and an event word of two bytes each, and for every entry two bytes in the available
ring and eight in the used ring. -/
def bytes (size : UInt16) : Part → Nat
  | .descriptor => 16 * size.toNat
  | .available => 6 + 2 * size.toNat
  | .used => 6 + 8 * size.toNat

/-- What the device does with a ring. -/
def access : Part → Memory.Rights
  | .descriptor => .reading
  | .available => .reading
  | .used => .writing

theorem mem_all (p : Part) : p ∈ all := by
  cases p <;> decide

end Part

end VirtioMmio.Vring
