import VirtioMmio.Machine.Basic
import VirtioMmio.Proofs.Dma.Reach

/-!
What bringing a queue up establishes for good: the size is a power of two, every ring ends at an
address, and no two rings meet. Ring addresses are therefore plain sums, and the two bytes that an
index or an entry takes lie inside their own ring.
-/

namespace VirtioMmio.Vring

theorem isPowerOfTwo_iff (n : Nat) : isPowerOfTwo n = true ↔ ∃ k, n = 2 ^ k := by
  simp only [isPowerOfTwo, beq_iff_eq, Nat.one_shiftLeft]
  constructor
  · intro equal
    exact ⟨n.log2, equal⟩
  · rintro ⟨k, rfl⟩
    rw [Nat.log2_two_pow]

namespace Layout

/-- A layout that rings were found backed at. -/
structure Placed (l : Layout) : Prop where
  power : ∃ k, l.size.toNat = 2 ^ k
  ends : ∀ p, (l.addr p).toNat + p.bytes l.size < 2 ^ 64
  apart : ∀ p p', p ≠ p' → (l.addr p).toNat + p.bytes l.size ≤ (l.addr p').toNat ∨
    (l.addr p').toNat + p'.bytes l.size ≤ (l.addr p).toNat

/-- Every ring is there with the access the device needs. -/
def Backed (l : Layout) (s : Dma.Space) : Prop :=
  ∀ p, ∃ a, s.locate (l.addr p) (p.bytes l.size) p.access = .ok a

theorem Placed.size_pos {l : Layout} (placed : l.Placed) : 0 < l.size.toNat := by
  obtain ⟨k, power⟩ := placed.power
  rw [power]
  exact Nat.two_pow_pos k

theorem requireRing_eq_ok_iff (l : Layout) (s : Dma.Space) (p : Part) :
    l.requireRing s p = .ok () ↔ ∃ a, s.locate (l.addr p) (p.bytes l.size) p.access = .ok a := by
  rw [← s.check_eq_ok_iff]
  simp only [requireRing]
  cases s.check (l.addr p) (p.bytes l.size) p.access <;> simp

theorem requireBacked_eq_ok_iff (l : Layout) (s : Dma.Space) :
    l.requireBacked s = .ok () ↔ l.Backed s := by
  have each : l.requireBacked s = .ok () ↔ ∀ p, l.requireRing s p = .ok () := by
    simp only [requireBacked]
    constructor
    · intro all p
      cases desc : l.requireRing s .descriptor with
      | error e => simp [desc, bind, Except.bind] at all
      | ok =>
        cases avail : l.requireRing s .available with
        | error e => simp [desc, avail, bind, Except.bind] at all
        | ok =>
          cases p with
          | descriptor => exact desc
          | available => exact avail
          | used => simpa [desc, avail, bind, Except.bind] using all
    · intro all
      simp [all, bind, Except.bind]
  simp only [each, requireRing_eq_ok_iff, Backed]

theorem new_eq_ok {size max : UInt16} {desc avail used : UInt64} {l : Layout}
    (accepted : Layout.new size max desc avail used = .ok l) :
    l = ⟨size, desc, avail, used⟩ ∧ isPowerOfTwo l.size.toNat = true ∧
      ∀ pair ∈ Part.pairs, l.meet pair.1 pair.2 = false := by
  unfold Layout.new at accepted
  dsimp only at accepted
  split at accepted
  · cases accepted
  next power =>
  split at accepted
  · cases accepted
  split at accepted
  · cases accepted
  split at accepted
  · cases accepted
  next none =>
    cases accepted
    refine ⟨rfl, by simpa using power, ?_⟩
    intro pair member
    simpa using List.find?_eq_none.mp none pair member

/-- Rings that end at an address do not meet as ranges of unbounded numbers either. -/
theorem apart_of_not_meet {l : Layout} {p p' : Part}
    (ends : ∀ p, (l.addr p).toNat + p.bytes l.size < 2 ^ 64) (missed : l.meet p p' = false) :
    (l.addr p).toNat + p.bytes l.size ≤ (l.addr p').toNat ∨
      (l.addr p').toNat + p'.bytes l.size ≤ (l.addr p).toNat := by
  have stops (p : Part) : l.stop p = (l.addr p).toNat + p.bytes l.size :=
    Nat.min_eq_left (by have := ends p; omega)
  simp only [meet, stops, Bool.and_eq_false_iff, decide_eq_false_iff_not] at missed
  omega

theorem placed_of_new {size max : UInt16} {desc avail used : UInt64} {l : Layout} {s : Dma.Space}
    (accepted : Layout.new size max desc avail used = .ok l) (backed : l.Backed s) : l.Placed := by
  obtain ⟨_, power, clear⟩ := new_eq_ok accepted
  have ends (p : Part) : (l.addr p).toNat + p.bytes l.size < 2 ^ 64 := by
    obtain ⟨a, located⟩ := backed p
    exact (Dma.Space.locate_bounds located).1
  refine ⟨(isPowerOfTwo_iff _).mp power, ends, ?_⟩
  intro p p' different
  have listed : (p, p') ∈ Part.pairs ∨ (p', p) ∈ Part.pairs := by
    cases p <;> cases p' <;> first | exact absurd rfl different | decide
  rcases listed with listed | listed
  · exact apart_of_not_meet ends (clear _ listed)
  · exact (apart_of_not_meet ends (clear _ listed)).symm

end Layout

end VirtioMmio.Vring

namespace VirtioMmio

open Queue (Registers Virtqueue)
open Vring (Layout Part)

theorem Machine.bringUp_eq_ok {m m' : Machine} {r r' : Registers} {index max : UInt16}
    {indirect : Bool} (down : r.isUp = false)
    (done : m.bringUp r index max indirect = .ok (r', m')) :
    ∃ layout, Layout.new r.size max r.desc r.driver r.device = .ok layout ∧
      layout.Backed ⟨m.ram, m.dma, index⟩ ∧ r' = { r with live := some m.queues.length } ∧
      m' = { m with queues := m.queues ++ [{ index, layout, indirect }] } := by
  simp only [bringUp] at done
  rw [down] at done
  simp only [Bool.false_eq_true, if_false] at done
  split at done
  · cases done
  next layout accepted =>
  split at done
  · cases done
  next backed =>
    cases done
    exact ⟨layout, accepted, (layout.requireBacked_eq_ok_iff _).mp backed, rfl, rfl⟩

/-- Nothing else stands in the way of a queue that is brought up. -/
theorem Machine.bringUp_backed {m : Machine} {r : Registers} {index max : UInt16} (indirect : Bool)
    {layout : Layout} (down : r.isUp = false)
    (accepted : Layout.new r.size max r.desc r.driver r.device = .ok layout)
    (backed : layout.requireBacked ⟨m.ram, m.dma, index⟩ = .ok ()) :
    m.bringUp r index max indirect =
      .ok ({ r with live := some m.queues.length },
        { m with queues := m.queues ++ [{ index, layout, indirect }] }) := by
  simp only [bringUp, down, accepted, backed, Bool.false_eq_true, if_false]

namespace Queue.Virtqueue

/-- The queue was brought up from registers at some time. Its positions and flags may have changed
since, and so may memory and mappings. -/
def BroughtUp (q : Virtqueue) : Prop :=
  ∃ (m m' : Machine) (r r' : Registers) (max : UInt16), r.isUp = false ∧
    m.bringUp r q.index max q.indirect = .ok (r', m') ∧
    m'.queues = m.queues ++ [{ index := q.index, layout := q.layout, indirect := q.indirect }]

theorem BroughtUp.placed {q : Virtqueue} (up : q.BroughtUp) : q.layout.Placed := by
  obtain ⟨m, m', r, r', max, down, done, appended⟩ := up
  obtain ⟨layout, accepted, backed, _, rfl⟩ := Machine.bringUp_eq_ok down done
  have same : layout = q.layout := by simpa using appended
  exact same ▸ Layout.placed_of_new accepted backed

end Queue.Virtqueue

/-! ### Addresses -/

namespace Queue

theorem toNat_entryAddr {table : UInt64} {i : UInt16}
    (fits : table.toNat + 16 * i.toNat < 2 ^ 64) :
    (entryAddr table i).toNat = table.toNat + 16 * i.toNat := by
  simp only [entryAddr, UInt64.toNat_add, UInt64.toNat_mul, UInt16.toNat_toUInt64]
  rw [show (16 : UInt64).toNat = 16 from rfl, Nat.mod_eq_of_lt (a := 16 * i.toNat) (by omega),
    Nat.mod_eq_of_lt fits]

section Placed

variable {q : Virtqueue}

theorem toNat_availIndexAddr (placed : q.layout.Placed) :
    q.availIndexAddr.toNat = q.layout.avail.toNat + 2 := by
  have ends : q.layout.avail.toNat + (6 + 2 * q.layout.size.toNat) < 2 ^ 64 :=
    placed.ends .available
  rw [Virtqueue.availIndexAddr, UInt64.toNat_add, show (2 : UInt64).toNat = 2 from rfl,
    Nat.mod_eq_of_lt (by omega)]

theorem toNat_availEntryAddr (placed : q.layout.Placed) :
    q.availEntryAddr.toNat =
      q.layout.avail.toNat + (4 + 2 * (q.chainsTaken.toNat % q.layout.size.toNat)) := by
  have ends : q.layout.avail.toNat + (6 + 2 * q.layout.size.toNat) < 2 ^ 64 :=
    placed.ends .available
  have less : q.chainsTaken.toNat % q.layout.size.toNat < q.layout.size.toNat :=
    Nat.mod_lt _ placed.size_pos
  rw [Virtqueue.availEntryAddr]
  simp only [UInt64.toNat_add, UInt64.toNat_mul, UInt16.toNat_toUInt64, UInt16.toNat_mod]
  rw [show (2 : UInt64).toNat = 2 from rfl, show (4 : UInt64).toNat = 4 from rfl]
  omega

theorem toNat_usedIndexAddr (placed : q.layout.Placed) :
    q.usedIndexAddr.toNat = q.layout.used.toNat + 2 := by
  have ends : q.layout.used.toNat + (6 + 8 * q.layout.size.toNat) < 2 ^ 64 := placed.ends .used
  rw [Virtqueue.usedIndexAddr, UInt64.toNat_add, show (2 : UInt64).toNat = 2 from rfl,
    Nat.mod_eq_of_lt (by omega)]

theorem toNat_usedEntryAddr (placed : q.layout.Placed) :
    q.usedEntryAddr.toNat =
      q.layout.used.toNat + (4 + 8 * (q.chainsReturned.toNat % q.layout.size.toNat)) := by
  have ends : q.layout.used.toNat + (6 + 8 * q.layout.size.toNat) < 2 ^ 64 := placed.ends .used
  have less : q.chainsReturned.toNat % q.layout.size.toNat < q.layout.size.toNat :=
    Nat.mod_lt _ placed.size_pos
  rw [Virtqueue.usedEntryAddr]
  simp only [UInt64.toNat_add, UInt64.toNat_mul, UInt16.toNat_toUInt64, UInt16.toNat_mod]
  rw [show (8 : UInt64).toNat = 8 from rfl, show (4 : UInt64).toNat = 4 from rfl]
  omega

end Placed

end Queue

end VirtioMmio
