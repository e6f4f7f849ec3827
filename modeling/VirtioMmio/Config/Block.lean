import VirtioMmio.Bytes.LittleEndian
import VirtioMmio.Config.Error

/-!
The device-specific configuration block: a few bytes that the device publishes and of which the
driver may write some ranges. A generation counter advances with every change, so that a reader can
tell whether two reads saw the same block.
-/

namespace VirtioMmio.Config

/-- Bytes `start ..< stop` of a block. -/
structure Span where
  start : Nat
  stop : Nat
  deriving DecidableEq, Repr

/-- The block, the ranges the driver may write, and the number of changes so far. -/
structure Block where
  bytes : List UInt8
  writable : List Span
  generation : UInt32 := 0
  deriving DecidableEq, Repr

inductive BlockOutcome where
  | written (changed : Bool)
  | readOnly
  | outOfRange
  deriving DecidableEq, Repr

namespace Block

def holds (b : Block) (offset size : Nat) : Bool :=
  offset + size ≤ b.bytes.length

def slice (b : Block) (offset size : Nat) : List UInt8 :=
  (b.bytes.drop offset).take size

/-- Replace the bytes at `offset`. A replacement by other bytes is a change. -/
def splice (b : Block) (offset : Nat) (bytes : List UInt8) : Block :=
  { b with
    bytes := b.bytes.take offset ++ bytes ++ b.bytes.drop (offset + bytes.length)
    generation := b.generation + 1 }

/-- The little-endian number in the `size` bytes at `offset`. -/
def read (b : Block) (offset size : Nat) : Option Nat :=
  if b.holds offset size then some (LittleEndian.decode (b.slice offset size)) else none

/-- A write by the driver. One writable range must hold the whole span. -/
def write (b : Block) (offset size value : Nat) : BlockOutcome × Block :=
  if !b.holds offset size then (.outOfRange, b)
  else if !b.writable.any (fun w => w.start ≤ offset && offset + size ≤ w.stop) then
    (.readOnly, b)
  else
    let bytes := LittleEndian.encode size value
    if b.slice offset size = bytes then (.written false, b)
    else (.written true, b.splice offset bytes)

/-- New bytes from the device: whether they differ from the old ones, and the block with them. -/
def revise (b : Block) (offset : Nat) (bytes : List UInt8) : Except ConfigError (Bool × Block) :=
  if !b.holds offset bytes.length then
    .error (.configTooLarge (min (offset + bytes.length) 0xffff_ffff_ffff_ffff))
  else if b.slice offset bytes.length = bytes then .ok (false, b)
  else .ok (true, b.splice offset bytes)

theorem length_splice {b : Block} {offset : Nat} {bytes : List UInt8}
    (inside : b.holds offset bytes.length = true) :
    (b.splice offset bytes).bytes.length = b.bytes.length := by
  simp only [holds, decide_eq_true_eq] at inside
  simp only [splice, List.length_append, List.length_take, List.length_drop]
  omega

theorem slice_splice {b : Block} {offset : Nat} {bytes : List UInt8}
    (inside : b.holds offset bytes.length = true) :
    (b.splice offset bytes).slice offset bytes.length = bytes := by
  simp only [holds, decide_eq_true_eq] at inside
  have front : (b.bytes.take offset).length = offset := by
    rw [List.length_take]
    omega
  simp only [slice, splice, List.append_assoc]
  rw [List.drop_append_of_le_length (by omega), List.drop_of_length_le (by omega)]
  simp

end Block

end VirtioMmio.Config
