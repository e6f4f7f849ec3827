import VirtioMmio.Dma.Space
import VirtioMmio.Proofs.Memory.Regions

/-!
What a device can reach through the memory of a queue. `Space.locate` decides every access: it gives
the place of a range in guest-physical memory, or refuses it, and looks at the mapping and at the
regions but never at a byte. Checks, reads and writes are `locate` followed by an access to the
store, so a fact about places is a fact about all three.
-/

namespace VirtioMmio.Dma

open Memory (Ram Rights Store)

/-! ### Translation -/

/-- A range that ends at an address is translated as if windows were made of unbounded numbers. -/
theorem Mapping.target?_eq_some_iff (m : Mapping) (iova : UInt64) (len : Nat) (gpa : UInt64) :
    m.target? iova len = some gpa ↔
      iova.toNat + len < 2 ^ 64 ∧ m.iova.toNat ≤ iova.toNat ∧
        iova.toNat + len ≤ m.iova.toNat + m.len ∧
        gpa.toNat = m.gpa.toNat + (iova.toNat - m.iova.toNat) := by
  have small := gpa.toNat_lt
  unfold Mapping.target?
  split
  · simp only [reduceCtorEq, false_iff]
    omega
  next ends =>
  split
  next outside =>
    simp only [Bool.or_eq_true, decide_eq_true_eq, UInt64.lt_iff_toNat_lt] at outside
    simp only [Mapping.stop] at outside
    simp only [reduceCtorEq, false_iff]
    omega
  next inside =>
  simp only [Bool.or_eq_true, decide_eq_true_eq, UInt64.lt_iff_toNat_lt] at inside
  simp only [Mapping.stop] at inside
  dsimp only
  split
  next fits =>
    -- The sum is an address, so it survives the way into a word.
    have exact : (UInt64.ofNat (m.gpa.toNat + (iova.toNat - m.iova.toNat))).toNat =
        m.gpa.toNat + (iova.toNat - m.iova.toNat) := by
      rw [UInt64.toNat_ofNat', Nat.mod_eq_of_lt fits]
    rw [Option.some.injEq, ← UInt64.toNat_inj, exact]
    omega
  next beyond =>
    simp only [reduceCtorEq, false_iff]
    omega

theorem Table.target_eq_ok_iff (t : Table) (cls : UInt16) (addr : UInt64) (len : Nat)
    (access : Rights) (gpa : UInt64) :
    t.target cls addr len access = .ok gpa ↔
      (t.attached = false ∧ gpa = addr) ∨
        (t.attached = true ∧ ∃ m, t.mapping cls = some m ∧ m.target? addr len = some gpa ∧
          m.rights.includes access = true) := by
  simp only [Table.target]
  cases t.attached with
  | false => simpa using eq_comm
  | true =>
    cases t.mapping cls with
    | none => simp
    | some m =>
      cases resolved : m.target? addr len with
      | none => simp [resolved]
      | some found =>
        by_cases right : m.rights.includes access = true
        · simp [resolved, right]
        · simp [resolved, right]

namespace Space

/-- Where a range lies in guest-physical memory, if the device may access it there. -/
def locate (s : Space) (addr : UInt64) (len : Nat) (access : Rights) : Except MemoryError Nat :=
  match s.table.target s.cls addr len access with
  | .error e => .error e
  | .ok gpa => (s.ram.check gpa len access).map fun _ => gpa.toNat

theorem check_eq (s : Space) (addr : UInt64) (len : Nat) (access : Rights) :
    s.check addr len access = (s.locate addr len access).map fun _ => () := by
  simp only [check, locate]
  cases s.table.target s.cls addr len access with
  | error e => rfl
  | ok gpa => cases passed : s.ram.check gpa len access <;> simp [passed, Except.map]

theorem read_eq (s : Space) (addr : UInt64) (len : Nat) :
    s.read addr len = (s.locate addr len .reading).map fun a => s.ram.store.read a len := by
  simp only [read, locate]
  cases s.table.target s.cls addr len .reading with
  | error e => rfl
  | ok gpa =>
    cases passed : s.ram.check gpa len .reading <;> simp [Ram.read_eq, passed, Except.map]

theorem write_eq (s : Space) (addr : UInt64) (bytes : List UInt8) :
    s.write addr bytes = (s.locate addr bytes.length .writing).map fun a =>
      { s.ram with store := s.ram.store.write a bytes } := by
  simp only [write, locate]
  cases s.table.target s.cls addr bytes.length .writing with
  | error e => rfl
  | ok gpa =>
    cases passed : s.ram.check gpa bytes.length .writing <;>
      simp [Ram.write_eq, passed, Except.map]

theorem read16_eq (s : Space) (addr : UInt64) :
    s.read16 addr = (s.locate addr 2 .reading).map s.ram.store.word := by
  rw [read16, read_eq]
  cases s.locate addr 2 .reading <;> rfl

theorem write16_eq (s : Space) (addr : UInt64) (v : UInt16) :
    s.write16 addr v = (s.locate addr 2 .writing).map fun a =>
      { s.ram with store := s.ram.store.write a (LittleEndian.encode 2 v.toNat) } := by
  rw [write16, write_eq, LittleEndian.length_encode]

theorem locate_eq_ok_iff (s : Space) (addr : UInt64) (len : Nat) (access : Rights) (a : Nat) :
    s.locate addr len access = .ok a ↔
      ∃ gpa, s.table.target s.cls addr len access = .ok gpa ∧
        s.ram.check gpa len access = .ok () ∧ gpa.toNat = a := by
  simp only [locate]
  cases s.table.target s.cls addr len access with
  | error e => simp
  | ok gpa => cases passed : s.ram.check gpa len access <;> simp [passed, Except.map]

theorem check_eq_ok_iff (s : Space) (addr : UInt64) (len : Nat) (access : Rights) :
    s.check addr len access = .ok () ↔ ∃ a, s.locate addr len access = .ok a := by
  rw [check_eq]
  cases s.locate addr len access <;> simp [Except.map]

theorem locate_of_read {s : Space} {addr : UInt64} {len : Nat} {bytes : List UInt8}
    (done : s.read addr len = .ok bytes) :
    ∃ a, s.locate addr len .reading = .ok a ∧ bytes = s.ram.store.read a len := by
  rw [read_eq] at done
  cases located : s.locate addr len .reading with
  | error e =>
    rw [located] at done
    cases done
  | ok a =>
    rw [located] at done
    exact ⟨a, rfl, (Except.ok.inj done).symm⟩

/-- Bytes play no part in where a range lies. -/
theorem locate_congr {s t : Space} (regions : t.ram.regions = s.ram.regions)
    (table : t.table = s.table) (cls : t.cls = s.cls) (addr : UInt64) (len : Nat)
    (access : Rights) : t.locate addr len access = s.locate addr len access := by
  simp only [locate, table, cls, Ram.check_congr regions]

/-! ### Where ranges lie -/

/-- A located range ends at an address on both sides. -/
theorem locate_bounds {s : Space} {addr : UInt64} {len a : Nat} {access : Rights}
    (located : s.locate addr len access = .ok a) :
    addr.toNat + len < 2 ^ 64 ∧ a + len < 2 ^ 64 := by
  obtain ⟨gpa, resolved, passed, rfl⟩ := (s.locate_eq_ok_iff addr len access a).mp located
  obtain ⟨r, _, held, _⟩ := Ram.check_region passed
  have ends := ((r.holds_iff gpa len).mp held).1
  rcases (s.table.target_eq_ok_iff s.cls addr len access gpa).mp resolved with
    ⟨_, rfl⟩ | ⟨_, m, _, translated, _⟩
  · exact ⟨ends, ends⟩
  · exact ⟨((m.target?_eq_some_iff addr len gpa).mp translated).1, ends⟩

/-- All ranges of a space are moved by the same distance. -/
theorem locate_distance {s : Space} {first second : UInt64} {n m a b : Nat} {access other : Rights}
    (one : s.locate first n access = .ok a) (two : s.locate second m other = .ok b) :
    first.toNat + b = second.toNat + a := by
  obtain ⟨g, resolvedOne, _, rfl⟩ := (s.locate_eq_ok_iff first n access a).mp one
  obtain ⟨h, resolvedTwo, _, rfl⟩ := (s.locate_eq_ok_iff second m other b).mp two
  rcases (s.table.target_eq_ok_iff s.cls first n access g).mp resolvedOne with
    ⟨off, rfl⟩ | ⟨on, w, mapped, there, _⟩
  · rcases (s.table.target_eq_ok_iff s.cls second m other h).mp resolvedTwo with
      ⟨_, rfl⟩ | ⟨on, _⟩
    · exact Nat.add_comm _ _
    · rw [off] at on
      cases on
  · rcases (s.table.target_eq_ok_iff s.cls second m other h).mp resolvedTwo with
      ⟨off, _⟩ | ⟨_, w', mapped', there', _⟩
    · rw [on] at off
      cases off
    · -- One class has one mapping, so the distance is the same.
      have same : w = w' := Option.some.inj (mapped.symm.trans mapped')
      subst w'
      have one := (w.target?_eq_some_iff first n g).mp there
      have two := (w.target?_eq_some_iff second m h).mp there'
      omega

/-- Ranges that are apart before translation are apart after it. -/
theorem locate_apart {s : Space} {first second : UInt64} {n m a b : Nat} {access other : Rights}
    (one : s.locate first n access = .ok a) (two : s.locate second m other = .ok b)
    (apart : first.toNat + n ≤ second.toNat ∨ second.toNat + m ≤ first.toNat) :
    a + n ≤ b ∨ b + m ≤ a := by
  have distance := locate_distance one two
  omega

/-- A non-empty part of a located range is located at the same distance from its start. -/
theorem locate_part {s : Space} (sound : s.ram.WellFormed) {addr part : UInt64} {len k m a : Nat}
    {access less : Rights} (located : s.locate addr len access = .ok a)
    (start : part.toNat = addr.toNat + k) (inside : k + m ≤ len) (nonempty : 0 < m)
    (fewer : access.includes less = true) : s.locate part m less = .ok (a + k) := by
  have ends := (locate_bounds located).2
  obtain ⟨gpa, resolved, passed, rfl⟩ := (s.locate_eq_ok_iff addr len access a).mp located
  have moved : (UInt64.ofNat (gpa.toNat + k)).toNat = gpa.toNat + k := by
    rw [UInt64.toNat_ofNat', Nat.mod_eq_of_lt (by omega)]
  apply (s.locate_eq_ok_iff part m less _).mpr
  refine ⟨UInt64.ofNat (gpa.toNat + k), ?_, ?_, moved⟩
  · apply (s.table.target_eq_ok_iff s.cls part m less _).mpr
    rcases (s.table.target_eq_ok_iff s.cls addr len access gpa).mp resolved with
      ⟨off, rfl⟩ | ⟨on, w, mapped, there, right⟩
    · exact .inl ⟨off, UInt64.toNat_inj.mp (by rw [moved, start])⟩
    · refine .inr ⟨on, w, mapped, ?_, Rights.includes_trans right fewer⟩
      have whole := (w.target?_eq_some_iff addr len gpa).mp there
      exact (w.target?_eq_some_iff part m _).mpr ⟨by omega, by omega, by omega, by omega⟩
  · exact Ram.check_part sound passed moved inside nonempty fewer

/-- The bytes of a part are the part of the bytes. -/
theorem read_part {s : Space} (sound : s.ram.WellFormed) {addr part : UInt64} {len k m : Nat}
    {bytes : List UInt8} (all : s.read addr len = .ok bytes)
    (start : part.toNat = addr.toNat + k) (inside : k + m ≤ len) (nonempty : 0 < m) :
    s.read part m = .ok ((bytes.drop k).take m) := by
  obtain ⟨a, located, rfl⟩ := locate_of_read all
  have there := locate_part sound located start inside nonempty
    (by decide : Rights.reading.includes .reading = true)
  rw [read_eq, there, Store.take_drop_read _ _ _ _ _ inside]
  rfl

/-! ### Grants -/

/-- The device may access a byte through the space: with an IOMMU its class has a mapping around the
byte that grants the access, and the byte lies in a region that grants it too. -/
def Grants (s : Space) (access : Rights) (a : Nat) : Prop :=
  (s.table.attached = true → ∃ m, s.table.mapping s.cls = some m ∧ m.gpa.toNat ≤ a ∧
    a < m.gpa.toNat + m.len ∧ m.rights.includes access = true) ∧
  ∃ r ∈ s.ram.regions, r.Owns a ∧ r.rights.includes access = true

theorem grants_of_locate {s : Space} {addr : UInt64} {len a : Nat} {access : Rights}
    (located : s.locate addr len access = .ok a) (i : Nat) (inside : i < len) :
    s.Grants access (a + i) := by
  obtain ⟨gpa, resolved, passed, rfl⟩ := (s.locate_eq_ok_iff addr len access a).mp located
  constructor
  · intro on
    rcases (s.table.target_eq_ok_iff s.cls addr len access gpa).mp resolved with
      ⟨off, _⟩ | ⟨_, m, mapped, there, right⟩
    · rw [on] at off
      cases off
    · have translated := (m.target?_eq_some_iff addr len gpa).mp there
      exact ⟨m, mapped, by omega, by omega, right⟩
  · obtain ⟨r, member, held, right⟩ := Ram.check_region passed
    exact ⟨r, member, Memory.Region.owns_of_holds held i inside, right⟩

end Space

end VirtioMmio.Dma
