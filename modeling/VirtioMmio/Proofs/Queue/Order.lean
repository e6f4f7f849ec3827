import VirtioMmio.Machine.Operations
import VirtioMmio.Proofs.Dma.Windows
import VirtioMmio.Proofs.Memory.Order
import VirtioMmio.Proofs.Queue.Footprint
import VirtioMmio.Proofs.Queue.Paths

/-!
Queues in guest RAM whose regions were added in another order. Rings and tables are never empty, so
every order leads to the same descriptors; only an empty buffer at the border of two regions can
pass in one order and be refused in another. Main result: `regions_in_any_order`, with
`order_decides_at_border` for the border.
-/

namespace VirtioMmio

open Memory (Ram Region Rights Store)
open Vring (Chain Descriptor)

namespace Dma.Space

/-- The same guest RAM but for the order of its regions, seen through the same mappings. -/
structure Reordered (s t : Space) : Prop where
  regions : t.ram.regions.Perm s.ram.regions
  store : t.ram.store = s.ram.store
  table : t.table = s.table
  cls : t.cls = s.cls

/-- The range is disputed where it lies in guest-physical memory. -/
def Disputes (s : Space) (addr : UInt64) (len : Nat) (access : Rights) : Prop :=
  ∃ gpa, s.table.target s.cls addr len access = .ok gpa ∧ s.ram.Disputes gpa len access

variable {s t : Space} {addr : UInt64} {len : Nat} {access : Rights}

theorem not_disputes_of_nonempty (nonempty : 0 < len) : ¬ s.Disputes addr len access :=
  fun ⟨_, _, disputed⟩ => Ram.not_disputes_of_nonempty nonempty disputed

namespace Reordered

theorem window (reordered : Reordered s t) (sound : s.ram.WellFormed)
    (settled : ¬ s.Disputes addr len access) :
    t.window addr len access = s.window addr len access := by
  rw [Space.window, Space.window, reordered.table, reordered.cls]
  cases resolved : s.table.target s.cls addr len access with
  | error e => rfl
  | ok gpa =>
    -- Translation looks at no region, so both look the same range up.
    exact Ram.window_perm sound reordered.regions fun disputed => settled ⟨gpa, resolved, disputed⟩

theorem check (reordered : Reordered s t) (sound : s.ram.WellFormed)
    (settled : ¬ s.Disputes addr len access) :
    t.check addr len access = s.check addr len access := by
  rw [check_eq_window, check_eq_window, reordered.window sound settled]

theorem read (reordered : Reordered s t) (sound : s.ram.WellFormed) (nonempty : 0 < len) :
    t.read addr len = s.read addr len := by
  rw [read_eq_window, read_eq_window, reordered.window sound (not_disputes_of_nonempty nonempty),
    reordered.store]

theorem read16 (reordered : Reordered s t) (sound : s.ram.WellFormed) (addr : UInt64) :
    t.read16 addr = s.read16 addr := by
  rw [Space.read16, Space.read16, reordered.read sound (by decide)]

theorem readDescriptor (reordered : Reordered s t) (sound : s.ram.WellFormed) (addr : UInt64) :
    t.readDescriptor addr = s.readDescriptor addr := by
  rw [Space.readDescriptor, Space.readDescriptor, reordered.read sound (by decide)]

end Reordered

end Dma.Space

namespace Queue

open Dma (Space)
open Dma.Space (Reordered)

/-- The walk arrives at a buffer and looks up where it lies: the buffer is in order. -/
structure LooksUp (s : Space) (table : UInt64) (count : UInt16) (first : UInt16) (seen : Bool)
    (d : Descriptor) : Prop where
  buffer : d.isIndirect = false
  arrives : ∃ last, Arrives s table count count.toNat first seen d last ∧
    (d.isWritable = true ∨ last = false)

/-- The walk enters the table that an indirect descriptor names: the queue allows it, the descriptor
is the last one, and the table holds a number of whole descriptors that can be read. -/
structure Enters (q : Virtqueue) (s : Space) (table : Descriptor) : Prop where
  indirect : table.isIndirect = true
  allowed : q.indirect = true
  last : table.hasNext = false
  whole : 0 < table.len.toNat ∧ table.len.toNat % 16 = 0 ∧ table.len.toNat / 16 ≤ maxIndirect
  readable : s.check table.addr table.len.toNat .reading = .ok ()

/-- A buffer that the walk from a head looks up, in the queue's own table or in one that it enters.
-/
inductive Meets (q : Virtqueue) (s : Space) (head : UInt16) : Descriptor → Prop
  | direct {d : Descriptor} (found : LooksUp s q.layout.desc q.layout.size head false d) :
    Meets q s head d
  | nested {table d : Descriptor} {seen : Bool}
    (arrives : Arrives s q.layout.desc q.layout.size q.layout.size.toNat head false table seen)
    (enters : Enters q s table)
    (found : LooksUp s table.addr (.ofNat (table.len.toNat / 16)) 0 seen d) : Meets q s head d

/-- A walk that begins at a buffer without a link arrives nowhere else. -/
theorem Arrives.eq_of_unlinked {s : Space} {table : UInt64} {count i : UInt16} {budget : Nat}
    {seen last : Bool} {d e : Descriptor} (arrives : Arrives s table count budget i seen d last)
    (entry : s.readDescriptor (entryAddr table i) = .ok e) (unlinked : e.hasNext = false) :
    d = e := by
  cases arrives with
  | here _ found => exact Except.ok.inj (found.symm.trans entry)
  -- To get any further, the first entry would have to have a link.
  | later _ found _ _ linked =>
    cases Except.ok.inj (found.symm.trans entry)
    rw [unlinked] at linked
    cases linked

theorem Meets.eq_of_unlinked {q : Virtqueue} {s : Space} {head : UInt16} {d e : Descriptor}
    (meets : Meets q s head d) (entry : s.readDescriptor (entryAddr q.layout.desc head) = .ok e)
    (buffer : e.isIndirect = false) (unlinked : e.hasNext = false) : d = e := by
  cases meets with
  | direct found =>
    obtain ⟨_, arrives, _⟩ := found.arrives
    exact arrives.eq_of_unlinked entry unlinked
  | nested arrives enters =>
    have indirect := enters.indirect
    rw [arrives.eq_of_unlinked entry unlinked, buffer] at indirect
    cases indirect

/-- The buffer is empty and lies at the border of two regions, of which one grants what its
direction needs and one does not. -/
def Disputed (s : Space) (d : Descriptor) : Prop :=
  s.Disputes d.addr d.len.toNat (if d.isWritable then .writing else .reading)

section Reordered

variable {q : Virtqueue} {s t : Space}

/-- A buffer that is out of order is refused before it is looked up. -/
theorem checkBuffer_reordered (reordered : Reordered s t) (sound : s.ram.WellFormed)
    {d : Descriptor} {seen : Bool}
    (settled : d.isWritable = true ∨ seen = false → ¬ Disputed s d) :
    checkBuffer t seen d = checkBuffer s seen d := by
  simp only [checkBuffer]
  split
  · rfl
  next inOrder =>
    -- What is in order is looked up, and only there the order of the regions could matter.
    have looked : d.isWritable = true ∨ seen = false := by
      cases writable : d.isWritable with
      | true => exact .inl rfl
      | false =>
        right
        simpa [writable] using inOrder
    rw [reordered.check sound (settled looked)]

theorem follow_reordered (reordered : Reordered s t) (sound : s.ram.WellFormed) {table : UInt64}
    {count first : UInt16} {seen : Bool} {taken : List Descriptor}
    {enter enter' : Descriptor → Bool → List Descriptor → Except QueueError (List Descriptor)}
    (settled : ∀ d, LooksUp s table count first seen d → ¬ Disputed s d)
    (entered : ∀ d last taken, Arrives s table count count.toNat first seen d last →
      d.isIndirect = true → enter' d last taken = enter d last taken) :
    follow t table count enter' count.toNat first seen taken =
      follow s table count enter count.toNat first seen taken :=
  follow_congr (fun _ _ => reordered.readDescriptor sound _)
    (fun d last arrives buffer => checkBuffer_reordered reordered sound
      fun looked => settled d ⟨buffer, last, arrives, looked⟩)
    entered

theorem followIndirect_reordered (reordered : Reordered s t) (sound : s.ram.WellFormed)
    {table : Descriptor} (indirect : table.isIndirect = true) (allowed : q.indirect = true)
    (last : table.hasNext = false) {seen : Bool}
    (settled : Enters q s table → ∀ d,
      LooksUp s table.addr (.ofNat (table.len.toNat / 16)) 0 seen d → ¬ Disputed s d)
    (taken : List Descriptor) :
    followIndirect t table seen taken = followIndirect s table seen taken := by
  simp only [followIndirect]
  split
  · rfl
  next shape =>
    simp only [not_or, Nat.not_lt, ne_eq, not_not] at shape
    obtain ⟨some, whole, few⟩ := shape
    -- A table is never empty, so there is no dispute about it.
    have nonempty : 0 < table.len.toNat := Nat.pos_of_ne_zero some
    rw [reordered.check sound (Space.not_disputes_of_nonempty nonempty)]
    cases readable : s.check table.addr table.len.toNat .reading with
    | error e => rfl
    | ok =>
      have enters : Enters q s table :=
        ⟨indirect, allowed, last, ⟨nonempty, whole, few⟩, readable⟩
      exact follow_reordered reordered sound (settled enters) (fun _ _ _ _ _ => rfl)

theorem chainAt_reordered (reordered : Reordered s t) (sound : s.ram.WellFormed) {head : UInt16}
    (settled : ∀ d, Meets q s head d → ¬ Disputed s d) : q.chainAt t head = q.chainAt s head := by
  have entered (table : Descriptor) (seen : Bool) (taken : List Descriptor)
      (arrives : Arrives s q.layout.desc q.layout.size q.layout.size.toNat head false table seen)
      (indirect : table.isIndirect = true) :
      q.enter t table seen taken = q.enter s table seen taken := by
    -- A table that the queue does not allow, or that is not last, is refused without a look at it.
    simp only [Virtqueue.enter]
    split
    · rfl
    next legal =>
      obtain ⟨allowed, last⟩ : q.indirect = true ∧ table.hasNext = false := by simpa using legal
      exact followIndirect_reordered reordered sound indirect allowed last
        (fun enters d found => settled d (.nested arrives enters found)) taken
  have walked :
      follow t q.layout.desc q.layout.size (q.enter t) q.layout.size.toNat head false [] =
        follow s q.layout.desc q.layout.size (q.enter s) q.layout.size.toNat head false [] :=
    follow_reordered reordered sound (fun d found => settled d (.direct found)) entered
  simp only [Virtqueue.chainAt, walked]

theorem nextHead_reordered (reordered : Reordered s t) (sound : s.ram.WellFormed) :
    q.nextHead t = q.nextHead s := by
  simp only [Virtqueue.nextHead, reordered.read16 sound]

theorem nextChain_reordered (reordered : Reordered s t) (sound : s.ram.WellFormed)
    (settled : ∀ head, q.nextHead s = .ok (some head) → ∀ d, Meets q s head d → ¬ Disputed s d) :
    q.nextChain t = q.nextChain s := by
  simp only [Virtqueue.nextChain, nextHead_reordered reordered sound]
  split
  · rfl
  · rfl
  next head offered => rw [chainAt_reordered reordered sound (settled head offered)]

end Reordered

end Queue

namespace Machine

open Queue (Virtqueue Meets Disputed entryAddr)

theorem fail_withRam (m : Machine) (ram : Ram) (number : Nat) :
    { m with ram }.fail number = { m.fail number with ram } := by
  simp only [fail]
  split
  · rfl
  · split <;> rfl

/-- A pop does the same in every order of the regions, unless the walk from the head comes to a
disputed buffer. -/
theorem takeChain_reordered {m : Machine} {ram : Ram} (sound : m.ram.WellFormed)
    (perm : ram.regions.Perm m.ram.regions) (store : ram.store = m.ram.store) {number : Nat}
    (settled : ∀ q head, m.liveQueue number = .ok q → q.nextHead (m.space q) = .ok (some head) →
      ∀ d, Meets q (m.space q) head d → ¬ Disputed (m.space q) d) :
    { m with ram }.takeChain number =
      ({ (m.takeChain number).1 with ram }, (m.takeChain number).2) := by
  have alive : { m with ram }.liveQueue number = m.liveQueue number := rfl
  simp only [takeChain, alive]
  cases live : m.liveQueue number with
  | error e => rfl
  | ok q =>
    have reordered : (m.space q).Reordered ({ m with ram }.space q) := ⟨perm, store, rfl, rfl⟩
    simp only [Queue.nextChain_reordered reordered sound fun head => settled q head live]
    split
    · rw [fail_withRam]
    · rfl
    · rfl

/-- Regions that can be added in one order can be added in every other. What a range leads to is the
same in all of them exactly if it is not disputed: if it is not empty, or is not where a region ends
and another one with other rights begins. So checks, reads and writes of such ranges do not depend
on the order, and neither does a pop that comes to no disputed buffer. -/
theorem regions_in_any_order {regions : List Region} {ram : Ram}
    (built : Ram.ofRegions regions = .ok ram) :
    (∀ regions', regions'.Perm regions → ∃ ram', Ram.ofRegions regions' = .ok ram') ∧
      (∀ addr len access,
        (∀ regions' ram', regions'.Perm regions → Ram.ofRegions regions' = .ok ram' →
          ram'.window addr len access = ram.window addr len access) ↔
          ¬ ram.Disputes addr len access) ∧
      ∀ regions' ram', regions'.Perm regions → Ram.ofRegions regions' = .ok ram' →
        ∀ store,
          let one : Ram := { ram with store }
          let other : Ram := { ram' with store }
          (∀ addr len access, ¬ ram.Disputes addr len access →
            other.check addr len access = one.check addr len access) ∧
          (∀ addr len, ¬ ram.Disputes addr len .reading →
            other.read addr len = one.read addr len) ∧
          (∀ addr bytes, ¬ ram.Disputes addr bytes.length .writing →
            (other.write addr bytes).map Ram.store = (one.write addr bytes).map Ram.store) ∧
          ∀ (m : Machine) (number : Nat), m.ram = one →
            (∀ q head, m.liveQueue number = .ok q → q.nextHead (m.space q) = .ok (some head) →
              ∀ d, Meets q (m.space q) head d → ¬ Disputed (m.space q) d) →
            { m with ram := other }.takeChain number =
              ({ (m.takeChain number).1 with ram := other }, (m.takeChain number).2) := by
  have sound := Ram.wellFormed_ofRegions built
  obtain ⟨_, _, rfl⟩ := (Ram.ofRegions_eq_ok_iff ..).mp built
  refine ⟨fun regions' perm => ⟨_, Ram.ofRegions_perm built perm⟩, ?_, ?_⟩
  · intro addr len access
    rw [← Ram.window_perm_iff sound]
    constructor
    · intro same regions' perm
      exact same regions' _ perm (Ram.ofRegions_perm built perm)
    · intro same regions' ram' perm built'
      obtain ⟨_, _, rfl⟩ := (Ram.ofRegions_eq_ok_iff ..).mp built'
      exact same regions' perm
  · intro regions' ram' perm built' store one other
    obtain ⟨_, _, rfl⟩ := (Ram.ofRegions_eq_ok_iff ..).mp built'
    have kept : one.WellFormed := sound.of_regions rfl
    have checked (addr : UInt64) (len : Nat) (access : Rights)
        (settled : ¬ one.Disputes addr len access) :
        other.check addr len access = one.check addr len access := by
      have same : other.window addr len access = one.window addr len access :=
        Ram.window_perm kept perm settled
      simp only [Ram.check, same]
    refine ⟨checked, ?_, ?_, ?_⟩
    · intro addr len settled
      rw [Ram.read_eq, Ram.read_eq, checked addr len .reading settled]
    · intro addr bytes settled
      rw [Ram.write_eq, Ram.write_eq, checked addr bytes.length .writing settled]
      cases one.check addr bytes.length .writing <;> rfl
    · intro m number same settled
      apply takeChain_reordered
      · rw [same]
        exact kept
      · rw [same]
        exact perm
      · rw [same]
      · exact settled

/-! Two regions of which only the upper one may be written, and a queue in the upper one that is
offered one writable buffer of `len` bytes at its start. -/

def borderRegions : List Region :=
  [⟨0x1000, 0x1000, .reading⟩, ⟨0x2000, 0x1000, .both⟩]

def borderStore (len : UInt32) : Store :=
  (Store.empty.write 0x2100 (Descriptor.encode ⟨0x2000, len, 2, 0⟩)).write 0x2202 [1, 0, 0, 0]

def borderQueue : Virtqueue where
  index := 0
  layout := ⟨4, 0x2100, 0x2200, 0x2300⟩
  indirect := false

def borderMachine (len : UInt32) (regions : List Region) : Machine where
  ram := ⟨regions, borderStore len⟩
  line := ⟨48, .nothing⟩
  queues := [borderQueue]

theorem ofRegions_border : Ram.ofRegions borderRegions = .ok { regions := borderRegions } := by
  refine (Ram.ofRegions_eq_ok_iff ..).mpr ⟨?_, ?_, rfl⟩
  · simp only [borderRegions, Ram.Addable]
    decide
  · exact List.pairwise_pair.mpr (.inl (by decide))

theorem border_perm : borderRegions.reverse.Perm borderRegions :=
  List.reverse_perm borderRegions

/-- A buffer that is not empty is accepted in either order. -/
theorem border_settled :
    (∃ ram', Ram.ofRegions borderRegions.reverse = .ok ram') ∧
      ((borderMachine 1 borderRegions.reverse).takeChain 0).2 =
        .ok (some ⟨0, [⟨0x2000, 1, 2, 0⟩]⟩) := by
  obtain ⟨reversed, _, same⟩ := regions_in_any_order ofRegions_border
  obtain ⟨ram', built'⟩ := reversed _ border_perm
  refine ⟨⟨ram', built'⟩, ?_⟩
  obtain rfl : ram' = { regions := borderRegions.reverse } :=
    ((Ram.ofRegions_eq_ok_iff ..).mp built').2.2
  obtain ⟨_, _, _, popped⟩ := same _ _ border_perm built' (borderStore 1)
  have accepted : ((borderMachine 1 borderRegions).takeChain 0).2 =
      .ok (some ⟨0, [⟨0x2000, 1, 2, 0⟩]⟩) := by decide +kernel
  refine (congrArg Prod.snd (popped (borderMachine 1 borderRegions) 0 rfl ?_)).trans accepted
  intro q head live offered d meets
  cases live
  -- The walk begins at entry 0, which has no link.
  have first : borderQueue.nextHead ((borderMachine 1 borderRegions).space borderQueue) =
      .ok (some 0) := by decide +kernel
  have entry : ((borderMachine 1 borderRegions).space borderQueue).readDescriptor
      (entryAddr 0x2100 0) = .ok ⟨0x2000, 1, 2, 0⟩ := by decide +kernel
  cases first.symm.trans offered
  cases meets.eq_of_unlinked entry rfl rfl
  exact Dma.Space.not_disputes_of_nonempty (by decide)

/-- An empty buffer there is refused if the closed region was added first, and accepted if it was
added last. -/
theorem order_decides_at_border :
    borderRegions.reverse.Perm borderRegions ∧
      Ram.ofRegions borderRegions = .ok { regions := borderRegions } ∧
      Ram.ofRegions borderRegions.reverse = .ok { regions := borderRegions.reverse } ∧
      Ram.check { regions := borderRegions } 0x2000 0 .writing =
        .error (.permission 0x2000 0 .writing) ∧
      Ram.check { regions := borderRegions.reverse } 0x2000 0 .writing = .ok () ∧
      ((borderMachine 0 borderRegions).takeChain 0).2 =
        .error (.buffer (.permission 0x2000 0 .writing)) ∧
      ((borderMachine 0 borderRegions.reverse).takeChain 0).2 =
        .ok (some ⟨0, [⟨0x2000, 0, 2, 0⟩]⟩) := by
  refine ⟨border_perm, ofRegions_border, ?_, rfl, rfl, ?_, ?_⟩
  · exact Ram.ofRegions_perm ofRegions_border border_perm
  · decide +kernel
  · decide +kernel

end Machine

end VirtioMmio
