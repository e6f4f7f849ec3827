import VirtioMmio.Machine.Operations
import VirtioMmio.Proofs.Queue.Chains

/-!
The available ring in guest-physical memory. `nextHead_eq` reads it through counters that never
wrap: the ring size divides `2 ^ 16`, so a wrapped counter selects the slot that the counter would.
`Spared` is what a write elsewhere leaves alone.
-/

namespace VirtioMmio.Queue

open Vring (Chain Layout Part)
open Dma (Space)
open Memory (Rights Store)

/-! ### Counters that wrap -/

/-- The distance of two wrapped counters is that of the counters. -/
theorem toNat_sub_ofNat {behind ahead : Nat} (ordered : behind ≤ ahead)
    (near : ahead - behind < 2 ^ 16) :
    (UInt16.ofNat ahead - UInt16.ofNat behind).toNat = ahead - behind := by
  rw [UInt16.toNat_sub, UInt16.toNat_ofNat', UInt16.toNat_ofNat']
  omega

/-- A wrapped counter selects the slot that the counter would. -/
theorem toNat_ofNat_mod (n : Nat) {size : UInt16} (power : ∃ k, size.toNat = 2 ^ k) :
    (UInt16.ofNat n % size).toNat = n % size.toNat := by
  obtain ⟨k, power⟩ := power
  have small : k ≤ 16 := by
    have bound := size.toNat_lt
    rw [power] at bound
    exact Nat.le_of_lt ((Nat.pow_lt_pow_iff_right (by decide)).mp bound)
  -- This is where the size has to be a power of two.
  have divides : size.toNat ∣ 2 ^ 16 := power ▸ Nat.pow_dvd_pow 2 small
  rw [UInt16.toNat_mod, UInt16.toNat_ofNat', Nat.mod_mod_of_dvd n divides]

theorem slots_apart {first second size : Nat} (ordered : first < second)
    (near : second < first + size) : first % size ≠ second % size := by
  intro same
  have divides : size ∣ second - first :=
    Nat.dvd_of_mod_eq_zero (Nat.sub_mod_eq_zero_of_mod_eq same.symm)
  have least := Nat.le_of_dvd (by omega) divides
  omega

/-! ### Reading the ring -/

/-- The available ring of a layout starts at `base` in guest-physical memory. -/
def Starts (l : Layout) (s : Space) (base : Nat) : Prop :=
  s.locate l.avail (Part.available.bytes l.size) .reading = .ok base

/-- The guest-physical address of the slot of entry `n`. -/
def slot (l : Layout) (base n : Nat) : Nat :=
  base + 4 + 2 * (n % l.size.toNat)

section Reading

variable {q : Virtqueue} {s : Space} {base : Nat}

theorem read16_available (sound : s.ram.WellFormed) (starts : Starts q.layout s base)
    {addr : UInt64} {k : Nat} (exact : addr.toNat = q.layout.avail.toNat + k)
    (inside : k + 2 ≤ Part.available.bytes q.layout.size) :
    s.read16 addr = .ok (s.ram.store.word (base + k)) := by
  have located := Space.locate_part sound starts exact inside (by decide)
    (by decide : Rights.reading.includes .reading = true)
  rw [Space.read16_eq, located]
  rfl

theorem nextHead_eq (placed : q.layout.Placed) (sound : s.ram.WellFormed)
    (starts : Starts q.layout s base) {taken published : Nat}
    (position : q.chainsTaken = .ofNat taken)
    (index : s.ram.store.word (base + 2) = .ofNat published) (behind : taken ≤ published)
    (room : published ≤ taken + q.layout.size.toNat) :
    q.nextHead s =
      .ok (if taken = published then none
        else some (s.ram.store.word (slot q.layout base taken))) := by
  have sizeSmall := q.layout.size.toNat_lt
  have ends : q.layout.avail.toNat + (6 + 2 * q.layout.size.toNat) < 2 ^ 64 :=
    placed.ends .available
  have readIndex := read16_available sound starts (toNat_availIndexAddr placed)
    (by simp only [Part.bytes]; omega)
  -- The positions wrap round, but never by more than the ring holds.
  have ahead : (UInt16.ofNat published - UInt16.ofNat taken).toNat = published - taken :=
    toNat_sub_ofNat behind (by omega)
  simp only [Virtqueue.nextHead]
  rw [readIndex, index, position]
  dsimp only
  by_cases all : taken = published
  · subst published
    simp
  · -- The distance is neither zero nor more than the ring holds, so the entry is read.
    have some : UInt16.ofNat published - UInt16.ofNat taken ≠ 0 := by
      intro none
      rw [none] at ahead
      have : (0 : UInt16).toNat = 0 := rfl
      omega
    have few : ¬ q.layout.size < UInt16.ofNat published - UInt16.ofNat taken := by
      rw [UInt16.lt_iff_toNat_lt, ahead]
      omega
    have slotLess : taken % q.layout.size.toNat < q.layout.size.toNat := by
      exact Nat.mod_lt _ (by omega)
    have entryAddr : q.availEntryAddr.toNat =
        q.layout.avail.toNat + (4 + 2 * (taken % q.layout.size.toNat)) := by
      rw [toNat_availEntryAddr placed, position, ← UInt16.toNat_mod,
        toNat_ofNat_mod taken placed.power]
    have readEntry := read16_available sound starts entryAddr (by simp only [Part.bytes]; omega)
    rw [if_neg some, if_neg few, readEntry, if_neg all, slot, Nat.add_assoc]

end Reading

/-! ### Writes elsewhere -/

/-- Two stores hold the same bytes in a range. -/
def Spared (base len : Nat) (before after : Store) : Prop :=
  ∀ i < len, after.byte (base + i) = before.byte (base + i)

theorem Spared.word {base len : Nat} {before after : Store} (spared : Spared base len before after)
    {k : Nat} (inside : k + 2 ≤ len) : after.word (base + k) = before.word (base + k) := by
  apply Store.word_congr
  intro i less
  have same := spared (k + i) (by omega)
  rwa [← Nat.add_assoc] at same

theorem spared_write {base len a : Nat} {bytes : List UInt8} (before : Store)
    (apart : base + len ≤ a ∨ a + bytes.length ≤ base) :
    Spared base len before (before.write a bytes) := by
  intro i inside
  exact Store.byte_write_of_not_mem before a bytes (base + i) (by omega)

end VirtioMmio.Queue
