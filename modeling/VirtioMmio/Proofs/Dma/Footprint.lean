import VirtioMmio.Proofs.Dma.Reach

/-!
The footprint of accesses. `Within` says that guest RAM changed only where a space grants writing,
`Agrees` that two spaces differ only in bytes that they do not grant reading of. A write stays
within its space, and spaces that agree give the same answer to every access.
-/

namespace VirtioMmio.Dma.Space

open Memory (Ram Rights Store)

/-! ### What is written -/

/-- Guest RAM after accesses through a space that began with the RAM of the space. -/
structure Within (s : Space) (ram : Ram) : Prop where
  regions : ram.regions = s.ram.regions
  bytes : ∀ a, ram.store.byte a ≠ s.ram.store.byte a → s.Grants .writing a

theorem grants_congr {s t : Space} (regions : t.ram.regions = s.ram.regions)
    (table : t.table = s.table) (cls : t.cls = s.cls) (access : Rights) (a : Nat) :
    t.Grants access a ↔ s.Grants access a := by
  rw [Grants, Grants, regions, table, cls]

namespace Within

theorem refl (s : Space) : s.Within s.ram where
  regions := rfl
  bytes _ changed := absurd rfl changed

theorem trans {s : Space} {ram ram' : Ram} (first : s.Within ram)
    (second : Within { s with ram } ram') : s.Within ram' where
  regions := second.regions.trans first.regions
  bytes a changed := by
    -- A byte that is different in the end was changed by one of the two.
    by_cases early : ram.store.byte a = s.ram.store.byte a
    · have late : ram'.store.byte a ≠ ram.store.byte a := by
        rw [early]
        exact changed
      exact (grants_congr (t := { s with ram }) first.regions rfl rfl .writing a).mp
        (second.bytes a late)
    · exact first.bytes a early

end Within

theorem write_within {s : Space} {addr : UInt64} {bytes : List UInt8} {ram : Ram}
    (done : s.write addr bytes = .ok ram) : s.Within ram := by
  rw [write_eq] at done
  cases located : s.locate addr bytes.length .writing with
  | error e =>
    rw [located] at done
    cases done
  | ok a =>
    rw [located] at done
    cases done
    refine ⟨rfl, ?_⟩
    -- Bytes outside the range stay, and those inside it are granted.
    intro x changed
    by_cases inside : a ≤ x ∧ x < a + bytes.length
    · have granted := grants_of_locate located (x - a) (by omega)
      rwa [Nat.add_sub_cancel' inside.1] at granted
    · exact absurd (Store.byte_write_of_not_mem _ _ _ _ (by omega)) changed

theorem write16_within {s : Space} {addr : UInt64} {v : UInt16} {ram : Ram}
    (done : s.write16 addr v = .ok ram) : s.Within ram :=
  write_within done

/-! ### What answers depend on -/

/-- The same regions seen through the same mappings, whatever the bytes. -/
structure SamePlaces (s t : Space) : Prop where
  regions : t.ram.regions = s.ram.regions
  table : t.table = s.table
  cls : t.cls = s.cls

/-- The same places, with the same byte wherever reading is granted. -/
structure Agrees (s t : Space) : Prop extends SamePlaces s t where
  bytes : ∀ a, s.Grants .reading a → t.ram.store.byte a = s.ram.store.byte a

section Agreement

variable {s t : Space}

theorem SamePlaces.check (same : SamePlaces s t) (addr : UInt64) (len : Nat) (access : Rights) :
    t.check addr len access = s.check addr len access := by
  rw [check_eq, check_eq, locate_congr same.regions same.table same.cls]

/-- Whether a write is granted does not depend on bytes, and it leaves the places the same. -/
theorem SamePlaces.write (same : SamePlaces s t) (addr : UInt64) (bytes : List UInt8) :
    (∃ e, s.write addr bytes = .error e ∧ t.write addr bytes = .error e) ∨
      ∃ ram ram', s.write addr bytes = .ok ram ∧ t.write addr bytes = .ok ram' ∧
        SamePlaces { s with ram } { t with ram := ram' } := by
  have located := locate_congr same.regions same.table same.cls addr bytes.length .writing
  cases there : s.locate addr bytes.length .writing with
  | error e =>
    rw [there] at located
    exact .inl ⟨e, by rw [write_eq, there]; rfl, by rw [write_eq, located]; rfl⟩
  | ok a =>
    rw [there] at located
    refine .inr ⟨_, _, by rw [write_eq, there]; rfl, by rw [write_eq, located]; rfl, ?_⟩
    exact ⟨same.regions, same.table, same.cls⟩

/-- What is read depends on the bytes of the range and on no others. -/
theorem SamePlaces.read (same : SamePlaces s t) (addr : UInt64) (len : Nat)
    (bytes : ∀ a, s.locate addr len .reading = .ok a → ∀ i, i < len →
      t.ram.store.byte (a + i) = s.ram.store.byte (a + i)) : t.read addr len = s.read addr len := by
  rw [read_eq, read_eq, locate_congr same.regions same.table same.cls]
  cases there : s.locate addr len .reading with
  | error e => rfl
  | ok a => exact congrArg Except.ok (Store.read_congr (bytes a there))

theorem Agrees.read (agrees : Agrees s t) (addr : UInt64) (len : Nat) :
    t.read addr len = s.read addr len := by
  apply agrees.toSamePlaces.read
  intro a there i inside
  exact agrees.bytes (a + i) (grants_of_locate there i inside)

theorem Agrees.read16 (agrees : Agrees s t) (addr : UInt64) : t.read16 addr = s.read16 addr := by
  rw [Space.read16, Space.read16, agrees.read]

theorem Agrees.readDescriptor (agrees : Agrees s t) (addr : UInt64) :
    t.readDescriptor addr = s.readDescriptor addr := by
  rw [Space.readDescriptor, Space.readDescriptor, agrees.read]

/-- Reading is not disturbed by a write to other addresses, wherever both lie in guest-physical
memory. -/
theorem read_write_of_apart {addr other : UInt64} {len : Nat} {bytes : List UInt8} {ram : Ram}
    (done : s.write other bytes = .ok ram)
    (apart : addr.toNat + len ≤ other.toNat ∨ other.toNat + bytes.length ≤ addr.toNat) :
    Space.read { s with ram } addr len = s.read addr len := by
  rw [write_eq] at done
  cases target : s.locate other bytes.length .writing with
  | error e =>
    rw [target] at done
    cases done
  | ok b =>
    rw [target] at done
    cases done
    have same : SamePlaces s { s with ram := ⟨s.ram.regions, s.ram.store.write b bytes⟩ } :=
      ⟨rfl, rfl, rfl⟩
    apply same.read
    intro a located i inside
    have away := locate_apart located target apart
    exact Store.byte_write_of_not_mem _ _ _ _ (by omega)

end Agreement

end VirtioMmio.Dma.Space
