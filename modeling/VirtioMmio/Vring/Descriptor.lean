import VirtioMmio.Bytes.LittleEndian

/-!
Descriptors of a split virtqueue and their 16-byte form in guest memory. Main statement:
`decode_encode`.
-/

namespace VirtioMmio.Vring

/-- One buffer of a chain: `len` bytes at `addr`. -/
structure Descriptor where
  addr : UInt64
  len : UInt32
  flags : UInt16
  -- The index of the following descriptor, if the flags announce one.
  next : UInt16
  deriving DecidableEq, Repr, Inhabited

namespace Descriptor

/-- Flag: another descriptor follows. -/
def nextFlag : UInt16 := 1
/-- Flag: the device writes the buffer; without it the device reads. -/
def writeFlag : UInt16 := 2
/-- Flag: the buffer is itself a table of descriptors. -/
def indirectFlag : UInt16 := 4

def hasNext (d : Descriptor) : Bool := d.flags &&& nextFlag != 0
def isWritable (d : Descriptor) : Bool := d.flags &&& writeFlag != 0
def isIndirect (d : Descriptor) : Bool := d.flags &&& indirectFlag != 0

/-- The descriptor as it lies in memory: address, length, flags and next, all little-endian. -/
def encode (d : Descriptor) : List UInt8 :=
  LittleEndian.encode 8 d.addr.toNat ++ LittleEndian.encode 4 d.len.toNat ++
    LittleEndian.encode 2 d.flags.toNat ++ LittleEndian.encode 2 d.next.toNat

/-- The descriptor that 16 bytes stand for. -/
def decode (bytes : List UInt8) : Descriptor where
  addr := UInt64.ofNat (LittleEndian.decode (bytes.take 8))
  len := UInt32.ofNat (LittleEndian.decode ((bytes.drop 8).take 4))
  flags := UInt16.ofNat (LittleEndian.decode ((bytes.drop 12).take 2))
  next := UInt16.ofNat (LittleEndian.decode ((bytes.drop 14).take 2))

@[simp] theorem length_encode (d : Descriptor) : d.encode.length = 16 := by
  simp [encode]

theorem decode_encode (d : Descriptor) : decode d.encode = d := by
  obtain ⟨a, l, f, n⟩ := d
  have takeAddr : (encode ⟨a, l, f, n⟩).take 8 = LittleEndian.encode 8 a.toNat := by
    simp [encode]
  have takeLen : ((encode ⟨a, l, f, n⟩).drop 8).take 4 = LittleEndian.encode 4 l.toNat := by
    simp [encode]
  have takeFlags : ((encode ⟨a, l, f, n⟩).drop 12).take 2 = LittleEndian.encode 2 f.toNat := by
    simp [encode, List.drop_append, List.take_append]
  have takeNext : ((encode ⟨a, l, f, n⟩).drop 14).take 2 = LittleEndian.encode 2 n.toNat := by
    have short (k w v : Nat) (h : w ≤ k) : (LittleEndian.encode w v).drop k = [] :=
      List.drop_eq_nil_of_le (by simpa using h)
    have whole : (LittleEndian.encode 2 n.toNat).take 2 = LittleEndian.encode 2 n.toNat :=
      List.take_of_length_le (by simp)
    simp [encode, List.drop_append, short, whole]
  have ha := a.toNat_lt
  have hl := l.toNat_lt
  have hf := f.toNat_lt
  have hn := n.toNat_lt
  simp only [decode, takeAddr, takeLen, takeFlags, takeNext, LittleEndian.decode_encode]
  rw [Nat.mod_eq_of_lt (by omega), Nat.mod_eq_of_lt (by omega), Nat.mod_eq_of_lt (by omega),
    Nat.mod_eq_of_lt (by omega)]
  simp

end Descriptor

end VirtioMmio.Vring
