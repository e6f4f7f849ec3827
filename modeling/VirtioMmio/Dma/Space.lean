import VirtioMmio.Dma.Table
import VirtioMmio.Memory.Ram
import VirtioMmio.Vring.Descriptor

/-!
The memory a queue sees: guest RAM through the mapping of the queue's buffer class. Every access
is resolved and checked anew, so a change of a mapping or of the rights of a region takes effect
at the next access.
-/

namespace VirtioMmio.Dma

/-- Guest RAM as the queue of class `cls` addresses it. -/
structure Space where
  ram : Memory.Ram
  table : Table
  cls : UInt16

namespace Space

/-- Refuse a range that does not resolve, is not backed, or does not grant the access. -/
def check (s : Space) (addr : UInt64) (len : Nat) (access : Memory.Rights) :
    Except MemoryError Unit :=
  match s.table.target s.cls addr len access with
  | .ok gpa => s.ram.check gpa len access
  | .error e => .error e

def read (s : Space) (addr : UInt64) (len : Nat) : Except MemoryError (List UInt8) :=
  match s.table.target s.cls addr len .reading with
  | .ok gpa => s.ram.read gpa len
  | .error e => .error e

def write (s : Space) (addr : UInt64) (bytes : List UInt8) : Except MemoryError Memory.Ram :=
  match s.table.target s.cls addr bytes.length .writing with
  | .ok gpa => s.ram.write gpa bytes
  | .error e => .error e

def read16 (s : Space) (addr : UInt64) : Except MemoryError UInt16 :=
  (s.read addr 2).map fun bytes => UInt16.ofNat (LittleEndian.decode bytes)

def write16 (s : Space) (addr : UInt64) (v : UInt16) : Except MemoryError Memory.Ram :=
  s.write addr (LittleEndian.encode 2 v.toNat)

def readDescriptor (s : Space) (addr : UInt64) : Except MemoryError Vring.Descriptor :=
  (s.read addr 16).map Vring.Descriptor.decode

end Space

end VirtioMmio.Dma
