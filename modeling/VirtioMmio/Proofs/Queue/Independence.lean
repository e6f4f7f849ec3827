import VirtioMmio.Proofs.Machine.Requests
import VirtioMmio.Proofs.Queue.Chains
import VirtioMmio.Proofs.Queue.Footprint

/-!
The two sides of a queue. Chains are taken through the available ring and the descriptor table, and
returned through the used ring. No two rings share an address before translation, so none do after
it, and what one side writes the other never reads. Main result: `take_return_commute`.

An indirect table and a buffer lie wherever the driver put them, maybe inside the used ring. Buffers
are only checked when a chain is taken, but tables are read; the result is about queues without
them.
-/

namespace VirtioMmio

open Dma.Space (SamePlaces)
open Queue (Virtqueue)
open Vring (Chain Descriptor Layout Part)

namespace Queue

open Dma (Space)

/-! ### What returning a chain leaves alone -/

/-- The second space has the same places as the first, and the same bytes in one part of a queue. -/
structure Spares (l : Layout) (p : Part) (s t : Space) : Prop extends SamePlaces s t where
  read : ∀ (addr : UInt64) (k len : Nat), addr.toNat = (l.addr p).toNat + k →
    k + len ≤ p.bytes l.size → t.read addr len = s.read addr len

namespace Spares

variable {l : Layout} {p p' : Part} {s t u : Space}

theorem trans (first : Spares l p s t) (second : Spares l p t u) : Spares l p s u where
  regions := second.regions.trans first.regions
  table := second.table.trans first.table
  cls := second.cls.trans first.cls
  read addr k len start inside :=
    (second.read addr k len start inside).trans (first.read addr k len start inside)

/-- A write inside another part. -/
theorem of_write (placed : l.Placed) (other : p ≠ p') {addr : UInt64} {k : Nat}
    {bytes : List UInt8} {ram : Memory.Ram} (done : s.write addr bytes = .ok ram)
    (start : addr.toNat = (l.addr p').toNat + k) (inside : k + bytes.length ≤ p'.bytes l.size) :
    Spares l p s { s with ram } where
  regions := (Space.write_within done).regions
  table := rfl
  cls := rfl
  read addr' k' len start' inside' := by
    apply Space.read_write_of_apart done
    have apart := placed.apart p p' other
    omega

theorem read16 (spares : Spares l p s t) {addr : UInt64} {k : Nat}
    (start : addr.toNat = (l.addr p).toNat + k) (inside : k + 2 ≤ p.bytes l.size) :
    t.read16 addr = s.read16 addr := by
  rw [Space.read16, Space.read16, spares.read addr k 2 start inside]

end Spares

section Sides

variable {q : Virtqueue} {s t : Space}

/-- Returning a chain writes to the used ring only. -/
theorem spares_putUsed (placed : q.layout.Placed) {head : UInt16} {len : UInt32}
    {ram : Memory.Ram} (done : q.putUsed s head len = (ram, .ok ())) {p : Part} (other : p ≠ .used) :
    Spares q.layout p s { s with ram } := by
  have less : q.chainsReturned.toNat % q.layout.size.toNat < q.layout.size.toNat :=
    Nat.mod_lt _ placed.size_pos
  have two (v : Nat) : (LittleEndian.encode 2 v).length = 2 := LittleEndian.length_encode 2 v
  simp only [Virtqueue.putUsed] at done
  split at done
  · cases done
  next filled stored =>
  split at done
  · cases done
  next published =>
  cases done
  have entry : Spares q.layout p s { s with ram := filled } :=
    .of_write placed other stored (toNat_usedEntryAddr placed)
      (by simp only [Virtqueue.length_encodeUsed, Part.bytes]; omega)
  have index : Spares q.layout p { s with ram := filled } { s with ram } :=
    .of_write placed other published (toNat_usedIndexAddr placed)
      (by simp only [two, Part.bytes]; omega)
  exact entry.trans index

/-- What is next depends on the available ring and the descriptor table only, unless the driver may
use indirect tables. -/
theorem nextChain_spared (placed : q.layout.Placed) (direct : q.indirect = false)
    (available : Spares q.layout .available s t) (descriptor : Spares q.layout .descriptor s t) :
    q.nextChain t = q.nextChain s := by
  have less : q.chainsTaken.toNat % q.layout.size.toNat < q.layout.size.toNat :=
    Nat.mod_lt _ placed.size_pos
  have index : t.read16 q.availIndexAddr = s.read16 q.availIndexAddr :=
    available.read16 (toNat_availIndexAddr placed) (by simp only [Part.bytes]; omega)
  have entry : t.read16 q.availEntryAddr = s.read16 q.availEntryAddr :=
    available.read16 (toNat_availEntryAddr placed) (by simp only [Part.bytes]; omega)
  have ends : q.layout.desc.toNat + 16 * q.layout.size.toNat < 2 ^ 64 := placed.ends .descriptor
  have read (i : UInt16) (inside : i < q.layout.size) :
      t.readDescriptor (entryAddr q.layout.desc i) =
        s.readDescriptor (entryAddr q.layout.desc i) := by
    rw [UInt16.lt_iff_toNat_lt] at inside
    have bytes : t.read (entryAddr q.layout.desc i) 16 = s.read (entryAddr q.layout.desc i) 16 :=
      descriptor.read _ (16 * i.toNat) 16 (toNat_entryAddr (by omega))
        (by simp only [Part.bytes]; omega)
    rw [Space.readDescriptor, Space.readDescriptor, bytes]
  have walked (head : UInt16) : q.chainAt t head = q.chainAt s head := by
    simp only [Virtqueue.chainAt]
    rw [follow_congr read]
    · intro d seen _ _
      exact checkBuffer_congr descriptor.toSamePlaces seen d
    · intro d seen taken _ _
      simp [Virtqueue.enter, direct]
  simp only [Virtqueue.nextChain, Virtqueue.nextHead, index, entry, walked]

end Sides

/-- Both sides keep positions of their own. -/
theorem Virtqueue.stepUsed_advance (q : Virtqueue) (next : Option Chain) :
    (q.advance next).stepUsed = q.stepUsed.advance next := by
  cases next <;> rfl

theorem Virtqueue.putUsed_advance (q : Virtqueue) (next : Option Chain) :
    (q.advance next).putUsed = q.putUsed := by
  cases next <;> rfl

end Queue

namespace Machine

variable {m m' : Machine} {number : Nat} {q : Virtqueue}

/-! ### Both orders -/

/-- The machine after a chain was taken and one was returned. -/
def afterBoth (m : Machine) (number : Nat) (next : Option Chain) (ram : Memory.Ram) : Machine :=
  { m with ram }.modifyQueue number fun q => (q.advance next).stepUsed

theorem take_return_eq_ok_iff (live : m.liveQueue number = .ok q) (head : UInt16) (len : UInt32)
    (next : Option Chain) (final : Machine) :
    (∃ taken, m.takeChain number = (taken, .ok next) ∧
        taken.returnChain number head len = (final, .ok ())) ↔
      head < q.layout.size ∧ ∃ ram, q.putUsed (m.space q) head len = (ram, .ok ()) ∧
        q.nextChain (m.space q) = .ok next ∧ final = m.afterBoth number next ram := by
  have live' : (m.modifyQueue number (·.advance next)).liveQueue number = .ok (q.advance next) :=
    liveQueue_modifyQueue live (by cases next <;> rfl) (by cases next <;> rfl)
  have size : (q.advance next).layout.size = q.layout.size := by cases next <;> rfl
  have space : (m.modifyQueue number (·.advance next)).space (q.advance next) = m.space q := by
    cases next <;> rfl
  have both (ram : Memory.Ram) :
      { m.modifyQueue number (·.advance next) with ram }.modifyQueue number (·.stepUsed) =
        m.afterBoth number next ram :=
    modifyQueue_modifyQueue { m with ram } number _ _
  simp only [takeChain_eq_ok_iff live]
  constructor
  · rintro ⟨taken, ⟨found, rfl⟩, gave⟩
    obtain ⟨inside, ram, done, rfl⟩ := (returnChain_eq_ok_iff live' head len).mp gave
    rw [size] at inside
    rw [space, q.putUsed_advance] at done
    exact ⟨inside, ram, done, found, both ram⟩
  · rintro ⟨inside, ram, done, found, rfl⟩
    refine ⟨_, ⟨found, rfl⟩, (returnChain_eq_ok_iff live' head len).mpr ?_⟩
    rw [size, space, q.putUsed_advance]
    exact ⟨inside, ram, done, (both ram).symm⟩

theorem return_take_eq_ok_iff (live : m.liveQueue number = .ok q) (head : UInt16) (len : UInt32)
    (next : Option Chain) (final : Machine) :
    (∃ returned, m.returnChain number head len = (returned, .ok ()) ∧
        returned.takeChain number = (final, .ok next)) ↔
      head < q.layout.size ∧ ∃ ram, q.putUsed (m.space q) head len = (ram, .ok ()) ∧
        q.nextChain { m.space q with ram } = .ok next ∧ final = m.afterBoth number next ram := by
  have live' (ram : Memory.Ram) :
      ({ m with ram }.modifyQueue number (·.stepUsed)).liveQueue number = .ok q.stepUsed :=
    liveQueue_modifyQueue (m := { m with ram }) live rfl rfl
  have both (ram : Memory.Ram) :
      ({ m with ram }.modifyQueue number (·.stepUsed)).modifyQueue number (·.advance next) =
        m.afterBoth number next ram := by
    simp only [modifyQueue_modifyQueue, afterBoth, Virtqueue.stepUsed_advance]
  simp only [returnChain_eq_ok_iff live]
  constructor
  · rintro ⟨returned, ⟨inside, ram, done, rfl⟩, took⟩
    obtain ⟨found, rfl⟩ := (takeChain_eq_ok_iff (live' ram) next).mp took
    exact ⟨inside, ram, done, found, both ram⟩
  · rintro ⟨inside, ram, done, found, rfl⟩
    exact ⟨_, ⟨inside, ram, done, rfl⟩,
      (takeChain_eq_ok_iff (live' ram) next).mpr ⟨found, (both ram).symm⟩⟩

/-- A chain that is taken before another is returned, or after: either both orders work or neither,
and both hand over the same and leave the same machine. -/
theorem take_return_commute (live : m.liveQueue number = .ok q) (up : q.BroughtUp)
    (direct : q.indirect = false) (head : UInt16) (len : UInt32) (next : Option Chain)
    (final : Machine) :
    (∃ taken, m.takeChain number = (taken, .ok next) ∧
        taken.returnChain number head len = (final, .ok ())) ↔
      ∃ returned, m.returnChain number head len = (returned, .ok ()) ∧
        returned.takeChain number = (final, .ok next) := by
  rw [take_return_eq_ok_iff live, return_take_eq_ok_iff live]
  have spared {ram : Memory.Ram} (done : q.putUsed (m.space q) head len = (ram, .ok ())) :
      q.nextChain { m.space q with ram } = q.nextChain (m.space q) :=
    Queue.nextChain_spared up.placed direct (Queue.spares_putUsed up.placed done (by decide))
      (Queue.spares_putUsed up.placed done (by decide))
  constructor
  · rintro ⟨inside, ram, done, found, rfl⟩
    exact ⟨inside, ram, done, (spared done).trans found, rfl⟩
  · rintro ⟨inside, ram, done, found, rfl⟩
    exact ⟨inside, ram, done, (spared done).symm.trans found, rfl⟩

/-! A queue without indirect tables, behind an IOMMU that lays its addresses over RAM. Entry 1 is
offered, a readable buffer that leads to entry 0, a writable one. -/

def mappedQueue : Virtqueue where
  index := 0
  layout := ⟨2, 0x8000, 0x8040, 0x8080⟩
  indirect := false

def mappedMachine : Machine where
  ram := {
    regions := [⟨0x1000, 0x1000, .both⟩]
    store := (Memory.Store.empty.write 0x1000
      (Descriptor.encode ⟨0x8100, 4, 2, 0⟩ ++ Descriptor.encode ⟨0x8200, 8, 1, 0⟩)).write 0x1042
      [1, 0, 1, 0] }
  dma := ⟨true, [some ⟨0x8000, 0x1000, 0x1000, .both⟩]⟩
  line := ⟨48, .nothing⟩
  queues := [mappedQueue]

theorem broughtUp_mappedQueue : mappedQueue.BroughtUp :=
  ⟨{ mappedMachine with queues := [] }, mappedMachine,
    { size := 2, desc := 0x8000, driver := 0x8040, device := 0x8080 },
    { size := 2, desc := 0x8000, driver := 0x8040, device := 0x8080, live := some 0 }, 256,
    rfl, rfl, rfl⟩

theorem mappedMachine_either_order :
    ∃ taken returned final chain, chain.descriptors = [⟨0x8200, 8, 1, 0⟩, ⟨0x8100, 4, 2, 0⟩] ∧
      mappedMachine.takeChain 0 = (taken, .ok (some chain)) ∧
      taken.returnChain 0 0 4 = (final, .ok ()) ∧
      mappedMachine.returnChain 0 0 4 = (returned, .ok ()) ∧
      returned.takeChain 0 = (final, .ok (some chain)) := by
  have found : (mappedMachine.takeChain 0).2 =
      .ok (some ⟨1, [⟨0x8200, 8, 1, 0⟩, ⟨0x8100, 4, 2, 0⟩]⟩) := by decide +kernel
  have done : ((mappedMachine.takeChain 0).1.returnChain 0 0 4).2 = .ok () := by decide +kernel
  have took : mappedMachine.takeChain 0 = ((mappedMachine.takeChain 0).1, _) := Prod.ext rfl found
  have gave : (mappedMachine.takeChain 0).1.returnChain 0 0 4 =
      (((mappedMachine.takeChain 0).1.returnChain 0 0 4).1, _) := Prod.ext rfl done
  obtain ⟨returned, gave', took'⟩ :=
    (take_return_commute (q := mappedQueue) rfl broughtUp_mappedQueue rfl 0 4 _ _).mp
      ⟨_, took, gave⟩
  exact ⟨_, returned, _, _, rfl, took, gave, gave', took'⟩

end Machine

end VirtioMmio
