import VirtioMmio.Vring.Descriptor

/-!
Descriptor chains: the buffers of one request, in order, with indirect tables already expanded.
-/

namespace VirtioMmio.Vring

/-- A chain, named by its head descriptor. -/
structure Chain where
  head : UInt16
  descriptors : List Descriptor
  deriving DecidableEq, Repr

namespace Chain

def readable (c : Chain) : List Descriptor :=
  c.descriptors.filter fun d => !d.isWritable

def writable (c : Chain) : List Descriptor :=
  c.descriptors.filter fun d => d.isWritable

/-- The total length of some buffers, in a word of 64 bits. -/
def totalLength (descriptors : List Descriptor) : UInt64 :=
  descriptors.foldl (fun total d => total + d.len.toUInt64) 0

def readableLength (c : Chain) : UInt64 := totalLength c.readable
def writableLength (c : Chain) : UInt64 := totalLength c.writable

end Chain

end VirtioMmio.Vring
