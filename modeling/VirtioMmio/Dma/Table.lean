import VirtioMmio.Dma.Error
import VirtioMmio.Dma.Mapping
import VirtioMmio.Memory.Error

/-!
The mappings of a device: one slot per buffer class, each class belonging to one queue.
Without an IOMMU addresses are used as they are; with one, an address of a class is good only
inside the mapping that class has at the moment.
-/

namespace VirtioMmio.Dma

/-- Whether an IOMMU is attached, and the active mapping of each buffer class. -/
structure Table where
  attached : Bool := false
  classes : List (Option Mapping) := []
  deriving DecidableEq, Repr

namespace Table

/-- A table of `count` unmapped classes, without an IOMMU. -/
def unmapped (count : Nat) : Table :=
  ⟨false, List.replicate count none⟩

def mapping (t : Table) (cls : UInt16) : Option Mapping :=
  t.classes[cls.toNat]?.join

/-- Install the mapping of a class that exists and has none. -/
def insert (t : Table) (cls : UInt16) (m : Mapping) : Except IommuError Table :=
  match t.classes[cls.toNat]? with
  | none => .error (.unknownClass cls)
  | some (some _) => .error (.alreadyMapped cls)
  | some none => .ok { t with classes := t.classes.set cls.toNat (some m) }

/-- Take the mapping of a class out of the table. -/
def remove (t : Table) (cls : UInt16) : Except IommuError (Mapping × Table) :=
  match t.classes[cls.toNat]? with
  | none => .error (.unknownClass cls)
  | some none => .error (.notMapped cls)
  | some (some m) => .ok (m, { t with classes := t.classes.set cls.toNat none })

theorem mapping_insert {t t' : Table} {cls : UInt16} {m : Mapping} (done : t.insert cls m = .ok t')
    (c : UInt16) : t'.mapping c = if c = cls then some m else t.mapping c := by
  simp only [insert] at done
  split at done
  · cases done
  · cases done
  · next free =>
    cases done
    obtain ⟨inside, -⟩ := List.getElem?_eq_some_iff.mp free
    by_cases same : c = cls
    · simp [mapping, same, inside]
    · have apart : cls.toNat ≠ c.toNat := fun h => same (UInt16.toNat_inj.mp h).symm
      simp [mapping, same, List.getElem?_set_ne apart]

/-- Removing gives the mapping of the class and touches that class only. -/
theorem mapping_remove {t t' : Table} {cls : UInt16} {m : Mapping}
    (done : t.remove cls = .ok (m, t')) :
    t.mapping cls = some m ∧ ∀ c, t'.mapping c = if c = cls then none else t.mapping c := by
  simp only [remove] at done
  split at done
  · cases done
  · cases done
  · next found =>
    cases done
    refine ⟨by simp [mapping, found], fun c => ?_⟩
    by_cases same : c = cls
    · simp [mapping, same, List.getElem?_set]
      split <;> rfl
    · have apart : cls.toNat ≠ c.toNat := fun h => same (UInt16.toNat_inj.mp h).symm
      simp [mapping, same, List.getElem?_set_ne apart]

/-- The guest-physical address of a range that a queue of class `cls` names. -/
def target (t : Table) (cls : UInt16) (addr : UInt64) (len : Nat) (access : Memory.Rights) :
    Except MemoryError UInt64 :=
  if t.attached then
    match t.mapping cls with
    | none => .error (.unmapped addr len)
    | some m =>
      match m.target? addr len with
      | none => .error (.unmapped addr len)
      | some gpa =>
        if m.rights.includes access then .ok gpa else .error (.permission addr len access)
  else .ok addr

end Table

end VirtioMmio.Dma
