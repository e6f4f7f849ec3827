import VirtioMmio.Proofs.Dma.Reach

/-!
Windows on the memory of a queue. Every check, read and write opens a window on its range; what a
window is depends on the regions and on the mapping of the class, `SameMap`, and on no byte. Main
result: `window_part`. A range that passed a check holds for all of its parts: they need not be
checked as a whole again, and no address on the way to them overflows.
-/

namespace VirtioMmio.Dma

open Memory (Ram Rights Window)

namespace Space

/-- The window on `[addr, addr + len)`, if the device may access the range so. -/
def window (s : Space) (addr : UInt64) (len : Nat) (access : Rights) :
    Except MemoryError Window :=
  match s.table.target s.cls addr len access with
  | .ok gpa => s.ram.window gpa len access
  | .error e => .error e

theorem window_eq (s : Space) (addr : UInt64) (len : Nat) (access : Rights) :
    s.window addr len access = (s.locate addr len access).map fun a => ⟨a, len⟩ := by
  simp only [window, locate]
  cases s.table.target s.cls addr len access with
  | error e => rfl
  | ok gpa =>
    dsimp only
    cases checked : s.ram.check gpa len access with
    | error e => exact (Ram.window_of_check_error checked).trans rfl
    | ok => exact (Ram.window_of_check checked).trans rfl

theorem check_eq_window (s : Space) (addr : UInt64) (len : Nat) (access : Rights) :
    s.check addr len access = (s.window addr len access).map fun _ => () := by
  rw [check_eq, window_eq]
  cases s.locate addr len access <;> rfl

theorem window_of_check {s : Space} {addr : UInt64} {len : Nat} {access : Rights}
    (passed : s.check addr len access = .ok ()) :
    ∃ a, s.locate addr len access = .ok a ∧ s.window addr len access = .ok ⟨a, len⟩ := by
  obtain ⟨a, located⟩ := (s.check_eq_ok_iff addr len access).mp passed
  exact ⟨a, located, by rw [window_eq, located]; rfl⟩

/-- What a window is opened for is read through it. -/
theorem read_eq_window (s : Space) (addr : UInt64) (len : Nat) :
    s.read addr len =
      match s.window addr len .reading with
      | .ok w => w.read s.ram.store 0 len
      | .error e => .error e := by
  simp only [read, window, Ram.read]
  cases s.table.target s.cls addr len .reading <;> rfl

/-! ### Maps that did not change -/

/-- An address leads to the same place in both: the regions and their rights are the same, and so is
the mapping of the class. Bytes may differ, and so may the mappings of other classes. -/
structure SameMap (s t : Space) : Prop where
  regions : t.ram.regions = s.ram.regions
  attached : t.table.attached = s.table.attached
  mapping : s.table.attached = true → t.table.mapping t.cls = s.table.mapping s.cls

namespace SameMap

variable {s t u : Space}

theorem refl (s : Space) : SameMap s s :=
  ⟨rfl, rfl, fun _ => rfl⟩

theorem withStore (s : Space) (store : Memory.Store) :
    SameMap s { s with ram := { s.ram with store } } :=
  ⟨rfl, rfl, fun _ => rfl⟩

theorem locate (same : SameMap s t) (addr : UInt64) (len : Nat) (access : Rights) :
    t.locate addr len access = s.locate addr len access := by
  have target : t.table.target t.cls addr len access = s.table.target s.cls addr len access := by
    simp only [Table.target, same.attached]
    split
    next on => rw [same.mapping on]
    · rfl
  simp only [Space.locate, target, Ram.check_congr same.regions]

theorem check (same : SameMap s t) (addr : UInt64) (len : Nat) (access : Rights) :
    t.check addr len access = s.check addr len access := by
  rw [check_eq, check_eq, same.locate]

theorem window (same : SameMap s t) (addr : UInt64) (len : Nat) (access : Rights) :
    t.window addr len access = s.window addr len access := by
  rw [window_eq, window_eq, same.locate]

end SameMap

/-! ### Parts of a range -/

/-- Within a range that was located the sum of its start and a distance is an address. -/
theorem toNat_add_of_locate {s : Space} {addr : UInt64} {len k a : Nat} {access : Rights}
    (located : s.locate addr len access = .ok a) (inside : k ≤ len) :
    (addr + .ofNat k).toNat = addr.toNat + k := by
  have ends := (locate_bounds located).1
  rw [UInt64.toNat_add, UInt64.toNat_ofNat', Nat.mod_eq_of_lt (by omega : k < 2 ^ 64),
    Nat.mod_eq_of_lt (by omega)]

/-- The window on a part of a range is that part of the window on the range, for the same access or
one that asks for less. -/
theorem window_part {s : Space} (sound : s.ram.WellFormed) {addr : UInt64} {len k m a : Nat}
    {access less : Rights} (located : s.locate addr len access = .ok a) (inside : k + m ≤ len)
    (nonempty : 0 < m) (fewer : access.includes less = true) :
    s.window (addr + .ofNat k) m less = .ok ⟨a + k, m⟩ := by
  have start := toNat_add_of_locate located (by omega : k ≤ len)
  rw [window_eq, locate_part sound located start inside nonempty fewer]
  rfl

end Space

end VirtioMmio.Dma
