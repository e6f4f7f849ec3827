import VirtioMmio.Bytes.LittleEndian
import VirtioMmio.Memory.Window

/-!
Guest RAM: a list of disjoint regions over one store of bytes, indexed by guest-physical address.
The layout only grows; the rights of a region may change at any time, and every access looks them
up anew.
-/

namespace VirtioMmio.Memory

structure Region where
  base : UInt64
  len : Nat
  rights : Rights
  deriving DecidableEq, Repr

namespace Region

/-- The first address past the region. -/
def stop (r : Region) : Nat :=
  r.base.toNat + r.len

/-- The region holds all of `[addr, addr + len)`, whose end is an address itself. -/
def holds (r : Region) (addr : UInt64) (len : Nat) : Bool :=
  addr.toNat + len < 0x1_0000_0000_0000_0000 && r.base ≤ addr && addr.toNat + len ≤ r.stop

/-- The region and `[base, base + len)` share an address. -/
def meets (r : Region) (base : UInt64) (len : Nat) : Bool :=
  base.toNat < r.stop && r.base.toNat < base.toNat + len

theorem holds_iff (r : Region) (addr : UInt64) (len : Nat) :
    r.holds addr len = true ↔
      addr.toNat + len < 0x1_0000_0000_0000_0000 ∧ r.base.toNat ≤ addr.toNat ∧
        addr.toNat + len ≤ r.stop := by
  simp [holds, UInt64.le_iff_toNat_le, and_assoc]

end Region

/-- Guest-physical memory. Regions are looked up in the order in which they were added. -/
structure Ram where
  regions : List Region := []
  store : Store := Store.empty

namespace Ram

def empty : Ram := {}

/-- The largest region that can be allocated: its length rounded up to whole 4096-byte pages must
stay below `2 ^ 63`. -/
def maxRegion : Nat := 0x8000_0000_0000_0000 - 4096

/-- Add a zero-filled region. It must be non-empty, end at an address, and meet no other region. -/
def add (ram : Ram) (base : UInt64) (len : Nat) (rights : Rights) :
    Except MemoryError Ram :=
  if 0x1_0000_0000_0000_0000 ≤ base.toNat + len then .error (.unmapped base len)
  else if len = 0 then .error (.unmapped base len)
  else if ram.regions.any (·.meets base len) then .error (.overlap base len)
  else if maxRegion < len then .error (.unmapped base len)
  else .ok { ram with regions := ram.regions ++ [⟨base, len, rights⟩] }

/-- Give the first region that starts at `base` the rights `rights`; `none` if there is none. -/
def setRights (ram : Ram) (base : UInt64) (rights : Rights) : Option Ram :=
  if ram.regions.any (·.base == base) then
    let place := ram.regions.findIdx (·.base == base)
    some { ram with regions := ram.regions.modify place fun r => { r with rights } }
  else none

/-- The window on `[addr, addr + len)`: one region must hold all of it and grant the access. -/
def window (ram : Ram) (addr : UInt64) (len : Nat) (access : Rights) :
    Except MemoryError Window :=
  match ram.regions.find? (·.holds addr len) with
  | none => .error (.unmapped addr len)
  | some r =>
    -- A range that is there but closed is told apart from one that is not there.
    if r.rights.includes access then .ok ⟨addr.toNat, len⟩
    else .error (.permission addr len access)

/-- Refuse a range that is not backed or does not grant the access. -/
def check (ram : Ram) (addr : UInt64) (len : Nat) (access : Rights) : Except MemoryError Unit :=
  match ram.window addr len access with
  | .ok _ => .ok ()
  | .error e => .error e

def read (ram : Ram) (addr : UInt64) (len : Nat) : Except MemoryError (List UInt8) :=
  match ram.window addr len .reading with
  | .ok w => w.read ram.store 0 len
  | .error e => .error e

def write (ram : Ram) (addr : UInt64) (bytes : List UInt8) : Except MemoryError Ram :=
  match ram.window addr bytes.length .writing with
  | .error e => .error e
  | .ok w =>
    match w.write ram.store 0 bytes with
    | .ok store => .ok { ram with store }
    | .error e => .error e

/-- The little-endian number in the `width` bytes at `addr`. -/
def readWord (ram : Ram) (addr : UInt64) (width : Nat) : Except MemoryError Nat :=
  (ram.read addr width).map LittleEndian.decode

/-- Put the low `width` bytes of `value` at `addr`, least significant byte first. -/
def writeWord (ram : Ram) (addr : UInt64) (width value : Nat) : Except MemoryError Ram :=
  ram.write addr (LittleEndian.encode width value)

/-- A window is granted exactly if the first region that holds the range grants the access. -/
theorem window_eq_ok_iff (ram : Ram) (addr : UInt64) (len : Nat) (access : Rights)
    (w : Window) :
    ram.window addr len access = .ok w ↔
      ∃ r, ram.regions.find? (·.holds addr len) = some r ∧
        r.rights.includes access = true ∧ w = ⟨addr.toNat, len⟩ := by
  simp only [window]
  split
  · next missing => simp [missing]
  · next r found =>
    simp only [found, Option.some.injEq, exists_eq_left']
    split
    · next granted => simp [granted, eq_comm]
    · next refused => simp [refused]

end Ram

end VirtioMmio.Memory
