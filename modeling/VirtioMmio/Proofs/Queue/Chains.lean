import VirtioMmio.Machine.Operations
import VirtioMmio.Proofs.Queue.Paths

/-!
Which chains a queue accepts. `WellFormedChain` says it in terms of paths, of the buffers on them
and of the checks that memory grants them; `chainAt_eq_ok_iff` says that these are the chains found.
Main result: `takeChain_accepts_iff`, by which a backend receives exactly the well-formed chains.
-/

namespace VirtioMmio.Queue

open Vring (Chain Descriptor Layout)
open Dma (Space)
open Memory (Rights)

/-! ### Well-formed chains -/

/-- Entry `i` of the table at `table` is readable and holds `d`. The address of the entry is the
unbounded sum. -/
def ReadsEntry (s : Space) (table : UInt64) (i : UInt16) (d : Descriptor) : Prop :=
  ∃ a : UInt64, a.toNat = table.toNat + 16 * i.toNat ∧ s.readDescriptor a = .ok d

/-- Bytes `16 * i` to `16 * i + 16` of a table stand for `d`. -/
def HoldsEntry (image : List UInt8) (i : UInt16) (d : Descriptor) : Prop :=
  d = .decode ((image.drop (16 * i.toNat)).take 16)

/-- A descriptor names a table that is readable as a whole, has between one and 32768 entries, and
in which a path of direct descriptors leads from the first entry through `buffers`. -/
def NamesTable (s : Space) (d : Descriptor) (buffers : List Descriptor) : Prop :=
  ∃ (n : Nat) (image : List UInt8) (path : List Hop), 1 ≤ n ∧ n ≤ 32768 ∧ d.len.toNat = 16 * n ∧
    s.read d.addr (16 * n) = .ok image ∧ Path (HoldsEntry image) n 0 path ∧
    (∀ h ∈ path, h.desc.isIndirect = false) ∧ buffers = path.map Hop.desc

/-- The buffers that a path through the queue's own table stands for: its descriptors, or all but
the last one followed by those of the table that the last one names. -/
inductive Expands (q : Virtqueue) (s : Space) : List Hop → List Descriptor → Prop
  | direct {path : List Hop} (all : ∀ h ∈ path, h.desc.isIndirect = false) :
      Expands q s path (path.map Hop.desc)
  | indirect {front : List Hop} {last : Hop} {buffers : List Descriptor}
      (indirect : last.desc.isIndirect = true) (allowed : q.indirect = true)
      (names : NamesTable s last.desc buffers) :
      Expands q s (front ++ [last]) (front.map Hop.desc ++ buffers)

/-- A chain as a driver should write it. -/
structure WellFormedChain (q : Virtqueue) (s : Space) (head : UInt16) (chain : Chain) : Prop where
  starts : chain.head = head
  path : ∃ path, Path (ReadsEntry s q.layout.desc) q.layout.size.toNat head path ∧
    Expands q s path chain.descriptors
  ordered : chain.descriptors.Pairwise fun d e => d.isWritable = true → e.isWritable = true
  granted : ∀ d ∈ chain.descriptors,
    s.check d.addr d.len.toNat (if d.isWritable then Rights.writing else Rights.reading) = .ok ()

/-! ### Tables -/

theorem readsAt_iff_readsEntry (s : Space) {table : UInt64} {i : UInt16}
    (fits : table.toNat + 16 * i.toNat < 2 ^ 64) (d : Descriptor) :
    ReadsAt s table i d ↔ ReadsEntry s table i d := by
  constructor
  · intro reads
    exact ⟨entryAddr table i, toNat_entryAddr fits, reads⟩
  · rintro ⟨a, exact, reads⟩
    have same : a = entryAddr table i :=
      UInt64.toNat_inj.mp (exact.trans (toNat_entryAddr fits).symm)
    rw [ReadsAt, ← same]
    exact reads

/-- Once a table was read as a whole, every entry reads as its part of the whole. -/
theorem readsAt_iff_holdsEntry {s : Space} (sound : s.ram.WellFormed) {table : UInt64} {n : Nat}
    {image : List UInt8} (whole : s.read table (16 * n) = .ok image) {i : UInt16}
    (inside : i.toNat < n) (d : Descriptor) : ReadsAt s table i d ↔ HoldsEntry image i d := by
  have fits : table.toNat + 16 * n < 2 ^ 64 := by
    obtain ⟨a, located, _⟩ := Space.locate_of_read whole
    exact (Space.locate_bounds located).1
  have part : s.read (entryAddr table i) 16 = .ok ((image.drop (16 * i.toNat)).take 16) :=
    Space.read_part sound whole (toNat_entryAddr (by omega)) (by omega) (by decide)
  rw [ReadsAt, Space.readDescriptor, part, HoldsEntry]
  exact ⟨fun reads => (Except.ok.inj reads).symm, fun equal => congrArg Except.ok equal.symm⟩

/-- Without further tables a walk finds the descriptors of a path. -/
theorem follow_direct_eq_ok_iff (s : Space) (table : UInt64) (count : UInt16) (first : UInt16)
    (seen : Bool) (taken out : List Descriptor) :
    follow s table count (fun _ _ _ => .error .badIndirect) count.toNat first seen taken = .ok out ↔
      ∃ path, Path (ReadsAt s table) count.toNat first path ∧
        (∀ h ∈ path, h.desc.isIndirect = false) ∧ Admits s seen (path.map Hop.desc) ∧
        out = (path.map Hop.desc).reverse ++ taken := by
  have functional := readsAt_functional s table
  rw [follow_eq_ok_iff]
  constructor
  · rintro ⟨path, trail, _, collects⟩
    rcases (collects_iff trail seen taken out).mp collects with
      ⟨all, admitted, rfl⟩ | ⟨front, last, _, _, _, entered⟩
    · have way := (path_iff_trail functional first path).mpr ⟨trail, trail.ends_of_direct all⟩
      exact ⟨path, way, all, admitted, rfl⟩
    · cases entered
  · rintro ⟨path, way, all, admitted, rfl⟩
    obtain ⟨trail, _⟩ := (path_iff_trail functional first path).mp way
    exact ⟨path, trail, way.length_le,
      (collects_iff trail seen taken _).mpr (.inl ⟨all, admitted, rfl⟩)⟩

theorem followIndirect_eq_ok_iff {s : Space} (sound : s.ram.WellFormed) (d : Descriptor)
    (seen : Bool) (taken out : List Descriptor) :
    followIndirect s d seen taken = .ok out ↔
      ∃ buffers, NamesTable s d buffers ∧ Admits s seen buffers ∧
        out = buffers.reverse ++ taken := by
  constructor
  · intro done
    unfold followIndirect at done
    dsimp only at done
    split at done
    · cases done
    next shape =>
    simp only [not_or, maxIndirect] at shape
    split at done
    · cases done
    next passed =>
    -- The length is a multiple of the size of an entry, so the count of entries loses nothing.
    obtain ⟨n, size⟩ : ∃ n, d.len.toNat = 16 * n := ⟨d.len.toNat / 16, by omega⟩
    rw [size, Nat.mul_div_cancel_left n (by decide)] at done
    have count : (UInt16.ofNat n).toNat = n := by
      rw [UInt16.toNat_ofNat', Nat.mod_eq_of_lt (by omega)]
    obtain ⟨path, way, all, admitted, rfl⟩ := (follow_direct_eq_ok_iff s d.addr _ _ _ _ _).mp done
    obtain ⟨a, located⟩ := (s.check_eq_ok_iff _ _ _).mp passed
    have whole : s.read d.addr (16 * n) = .ok (s.ram.store.read a (16 * n)) := by
      rw [Space.read_eq, ← size, located]
      rfl
    rw [count] at way
    exact ⟨path.map Hop.desc, ⟨n, _, path, by omega, by omega, size, whole,
      way.congr fun i d inside => readsAt_iff_holdsEntry sound whole inside d, all, rfl⟩,
      admitted, rfl⟩
  · rintro ⟨buffers, ⟨n, image, path, least, most, size, whole, way, all, rfl⟩, admitted, rfl⟩
    have passed : s.check d.addr (16 * n) .reading = .ok () := by
      obtain ⟨a, located, _⟩ := Space.locate_of_read whole
      exact (s.check_eq_ok_iff _ _ _).mpr ⟨a, located⟩
    have count : (UInt16.ofNat n).toNat = n := by
      rw [UInt16.toNat_ofNat', Nat.mod_eq_of_lt (by omega)]
    unfold followIndirect
    dsimp only
    rw [size, Nat.mul_div_cancel_left n (by decide), if_neg (by simp only [maxIndirect]; omega),
      passed]
    apply (follow_direct_eq_ok_iff s d.addr _ _ _ _ _).mpr
    refine ⟨path, ?_, all, admitted, rfl⟩
    rw [count]
    exact way.congr fun i d inside => (readsAt_iff_holdsEntry sound whole inside d).symm

/-! ### Chains -/

theorem Virtqueue.enter_eq_ok_iff (q : Virtqueue) {s : Space} (sound : s.ram.WellFormed)
    (d : Descriptor) (seen : Bool) (taken out : List Descriptor) :
    q.enter s d seen taken = .ok out ↔
      q.indirect = true ∧ d.hasNext = false ∧
        ∃ buffers, NamesTable s d buffers ∧ Admits s seen buffers ∧
          out = buffers.reverse ++ taken := by
  simp only [Virtqueue.enter]
  cases q.indirect <;> cases d.hasNext <;> simp [followIndirect_eq_ok_iff sound]

/-- In the table of a queue a path is a trail of what is read there that ends for lack of a link. -/
theorem path_iff_readTrail {l : Layout} (placed : l.Placed) (s : Space) (head : UInt16)
    (path : List Hop) :
    Path (ReadsEntry s l.desc) l.size.toNat head path ↔
      Trail (ReadsAt s l.desc) l.size.toNat head path ∧
        ∀ h ∈ path.getLast?, h.desc.hasNext = false := by
  have entries (i : UInt16) (d : Descriptor) (inside : i.toNat < l.size.toNat) :
      ReadsAt s l.desc i d ↔ ReadsEntry s l.desc i d := by
    have ends : l.desc.toNat + 16 * l.size.toNat < 2 ^ 64 := placed.ends .descriptor
    exact readsAt_iff_readsEntry s (by omega) d
  rw [← path_iff_trail (readsAt_functional s l.desc)]
  constructor
  · intro way
    exact way.congr fun i d inside => (entries i d inside).symm
  · intro way
    exact way.congr entries

/-- The chain that a queue finds at a head is the well-formed one, if there is one. -/
theorem Virtqueue.chainAt_eq_ok_iff {q : Virtqueue} (placed : q.layout.Placed) {s : Space}
    (sound : s.ram.WellFormed) (head : UInt16) (chain : Chain) :
    q.chainAt s head = .ok chain ↔ WellFormedChain q s head chain := by
  have ways := path_iff_readTrail placed s head
  have walked : q.chainAt s head = .ok chain ↔
      ∃ taken, follow s q.layout.desc q.layout.size (q.enter s) q.layout.size.toNat head false [] =
        .ok taken ∧ chain = ⟨head, taken.reverse⟩ := by
    simp only [chainAt]
    cases follow s q.layout.desc q.layout.size (q.enter s) q.layout.size.toNat head false [] <;>
      simp [eq_comm]
  rw [walked]
  constructor
  · rintro ⟨taken, done, rfl⟩
    obtain ⟨path, trail, _, collects⟩ := (follow_eq_ok_iff ..).mp done
    -- Either the walk stayed in the queue's own table, or its last step entered another one.
    rcases (collects_iff trail false [] taken).mp collects with
      ⟨all, admitted, rfl⟩ | ⟨front, last, rfl, kind, admitted, entered⟩
    · have way := (ways path).mpr ⟨trail, trail.ends_of_direct all⟩
      rw [List.append_nil, List.reverse_reverse]
      exact ⟨rfl, ⟨path, way, .direct all⟩, admitted.ordered, admitted.granted⟩
    · obtain ⟨allowed, unlinked, buffers, names, later, rfl⟩ :=
        (q.enter_eq_ok_iff sound _ _ _ _).mp entered
      have way := (ways _).mpr ⟨trail, by simpa using unlinked⟩
      -- Order and checks carry over from one table to the other.
      have whole := (admits_append s false _ _).mpr ⟨admitted, later⟩
      have listed : (buffers.reverse ++ ((front.map Hop.desc).reverse ++ [])).reverse =
          front.map Hop.desc ++ buffers := by simp
      rw [listed]
      exact ⟨rfl, ⟨_, way, .indirect kind allowed names⟩, whole.ordered, whole.granted⟩
  · obtain ⟨start, descriptors⟩ := chain
    rintro ⟨rfl, ⟨path, way, expands⟩, ordered, granted⟩
    obtain ⟨trail, ends⟩ := (ways path).mp way
    have whole : Admits s false descriptors := ⟨by simp, ordered, granted⟩
    -- A path repeats no entry, so the budget suffices.
    refine ⟨descriptors.reverse, (follow_eq_ok_iff ..).mpr ⟨path, trail, way.length_le, ?_⟩,
      by simp⟩
    apply (collects_iff trail false [] _).mpr
    generalize descriptors = all at expands whole ⊢
    cases expands with
    | direct direct => exact .inl ⟨direct, whole, by simp⟩
    | @indirect front last buffers kind allowed names =>
      obtain ⟨admitted, later⟩ := (admits_append s false _ _).mp whole
      refine .inr ⟨front, last, rfl, kind, admitted, ?_⟩
      rw [q.enter_eq_ok_iff sound]
      exact ⟨allowed, ends last (by simp), buffers, names, later, by simp⟩

end VirtioMmio.Queue

namespace VirtioMmio.Machine

open Queue (Virtqueue WellFormedChain)
open Vring (Chain Descriptor)

/-- A live queue that is offered a head finds and hands over exactly the well-formed chains there,
whatever memory holds. -/
theorem takeChain_accepts_iff {m : Machine} {number : Nat} {q : Virtqueue}
    (live : m.liveQueue number = .ok q) (up : q.BroughtUp) (sound : m.ram.WellFormed)
    {head : UInt16} (offered : q.nextHead (m.space q) = .ok (some head)) (chain : Chain) :
    (q.chainAt (m.space q) head = .ok chain ↔ WellFormedChain q (m.space q) head chain) ∧
      ((m.takeChain number).2 = .ok (some chain) ↔ WellFormedChain q (m.space q) head chain) := by
  have walked := q.chainAt_eq_ok_iff up.placed (s := m.space q) sound head chain
  have taken : (m.takeChain number).2 = .ok (some chain) ↔
      q.chainAt (m.space q) head = .ok chain := by
    simp only [takeChain, live, Virtqueue.nextChain, offered]
    cases q.chainAt (m.space q) head <;> simp
  exact ⟨walked, taken.trans walked⟩

/-! A machine with one queue of four entries. Its available ring offers entry 1, a readable buffer,
which leads to entry 0, an indirect table of a writable buffer and another one. -/

def sampleRam : Memory.Ram where
  regions := [⟨0x1000, 0x1000, .both⟩]
  store := ((Memory.Store.empty.write 0x1000
      (Descriptor.encode ⟨0x1400, 32, 4, 0⟩ ++ Descriptor.encode ⟨0x1300, 8, 1, 0⟩)).write 0x1400
      (Descriptor.encode ⟨0x1340, 4, 3, 1⟩ ++ Descriptor.encode ⟨0x1350, 4, 2, 0⟩)).write 0x1102
      [1, 0, 1, 0]

def sampleQueue : Virtqueue where
  index := 0
  layout := ⟨4, 0x1000, 0x1100, 0x1200⟩
  indirect := true

def sampleMachine : Machine where
  ram := sampleRam
  line := ⟨48, .nothing⟩
  queues := [sampleQueue]

def sampleChain : Chain where
  head := 1
  descriptors := [⟨0x1300, 8, 1, 0⟩, ⟨0x1340, 4, 3, 1⟩, ⟨0x1350, 4, 2, 0⟩]

theorem wellFormed_sampleRam : sampleRam.WellFormed where
  nonempty := by decide
  bounded := by decide
  apart := List.pairwise_singleton _ _

theorem broughtUp_sampleQueue : sampleQueue.BroughtUp :=
  ⟨{ sampleMachine with queues := [] }, sampleMachine,
    { size := 4, desc := 0x1000, driver := 0x1100, device := 0x1200 },
    { size := 4, desc := 0x1000, driver := 0x1100, device := 0x1200, live := some 0 }, 256,
    rfl, rfl, rfl⟩

theorem sampleChain_accepted :
    WellFormedChain sampleQueue (sampleMachine.space sampleQueue) 1 sampleChain := by
  have live : sampleMachine.liveQueue 0 = .ok sampleQueue := rfl
  have offered : sampleQueue.nextHead (sampleMachine.space sampleQueue) = .ok (some 1) := by
    decide +kernel
  have taken : (sampleMachine.takeChain 0).2 = .ok (some sampleChain) := by decide +kernel
  exact (takeChain_accepts_iff live broughtUp_sampleQueue wellFormed_sampleRam offered
    sampleChain).2.mp taken

end VirtioMmio.Machine
