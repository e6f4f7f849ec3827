import VirtioMmio.Memory.Rights

/-!
A window of an IOMMU: a range of I/O virtual addresses laid over guest-physical ones.
-/

namespace VirtioMmio.Dma

/-- `len` I/O virtual addresses from `iova` on, laid over guest-physical memory from `gpa` on. -/
structure Mapping where
  iova : UInt64
  len : Nat
  gpa : UInt64
  rights : Memory.Rights
  deriving DecidableEq, Repr

namespace Mapping

/-- The end of the window, cut to the largest address. -/
def stop (m : Mapping) : Nat :=
  min (m.iova.toNat + m.len) 0xffff_ffff_ffff_ffff

/-- The guest-physical address behind `iova`, if all of `[iova, iova + len)` lies in the window
and the result is an address. -/
def target? (m : Mapping) (iova : UInt64) (len : Nat) : Option UInt64 :=
  if 0x1_0000_0000_0000_0000 ≤ iova.toNat + len then none
  else if iova < m.iova || m.stop < iova.toNat + len then none
  else
    let gpa := m.gpa.toNat + (iova.toNat - m.iova.toNat)
    if gpa < 0x1_0000_0000_0000_0000 then some (UInt64.ofNat gpa) else none

end Mapping

end VirtioMmio.Dma
