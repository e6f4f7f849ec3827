import VirtioMmio.Proofs.Dma.Windows
import VirtioMmio.Proofs.Machine.Requests
import VirtioMmio.Proofs.Queue.Chains

/-!
Lists of buffers as the bytes they stand for. `places` lists the guest-physical places of all bytes
of some buffers in order, so the buffers of a chain are one sequence of bytes, however they lie.
A transfer of some length uses a part of each buffer: its `pieces`, which are buffers again. Main
result: `places_pieces`, by which the pieces are the front of the sequence.
-/

namespace VirtioMmio

open Memory (Ram Rights Store)
open Vring (Chain Descriptor)

namespace Dma.Space

/-- Where an address lies in guest-physical memory, if it may be accessed at all. -/
def place (s : Space) (addr : UInt64) : Nat :=
  match s.table.attached, s.table.mapping s.cls with
  | true, some m => m.gpa.toNat + (addr.toNat - m.iova.toNat)
  | _, _ => addr.toNat

variable {s : Space} {addr : UInt64} {len a : Nat} {access : Rights}

theorem eq_place_of_locate (located : s.locate addr len access = .ok a) : a = s.place addr := by
  obtain ⟨gpa, resolved, _, rfl⟩ := (s.locate_eq_ok_iff addr len access a).mp located
  rcases (s.table.target_eq_ok_iff s.cls addr len access gpa).mp resolved with
    ⟨off, rfl⟩ | ⟨on, m, mapped, there, _⟩
  · simp only [place, off]
  · simp only [place, on, mapped]
    exact ((m.target?_eq_some_iff addr len gpa).mp there).2.2.2

theorem locate_of_check (passed : s.check addr len access = .ok ()) :
    s.locate addr len access = .ok (s.place addr) := by
  obtain ⟨a, located⟩ := (s.check_eq_ok_iff addr len access).mp passed
  rw [located, eq_place_of_locate located]

theorem read_of_check (passed : s.check addr len .reading = .ok ()) :
    s.read addr len = .ok (s.ram.store.read (s.place addr) len) := by
  rw [read_eq, locate_of_check passed]
  rfl

theorem write_of_check {bytes : List UInt8}
    (passed : s.check addr bytes.length .writing = .ok ()) :
    s.write addr bytes =
      .ok { s.ram with store := s.ram.store.write (s.place addr) bytes } := by
  rw [write_eq, locate_of_check passed]
  rfl

theorem write_of_refused {bytes : List UInt8} {e : MemoryError}
    (refused : s.check addr bytes.length .writing = .error e) : s.write addr bytes = .error e := by
  rw [check_eq] at refused
  rw [write_eq]
  cases located : s.locate addr bytes.length .writing with
  | error e' =>
    rw [located] at refused
    cases refused
    rfl
  | ok a =>
    rw [located] at refused
    cases refused

end Dma.Space

namespace Queue

open Dma (Space)
open Dma.Space (SameMap)

/-! ### Buffers -/

/-- The number of bytes that some buffers hold together. -/
def capacity : List Descriptor → Nat
  | [] => 0
  | d :: buffers => d.len.toNat + capacity buffers

/-- The places of the bytes of some buffers, in order. -/
def places (s : Space) (buffers : List Descriptor) : List Nat :=
  buffers.flatMap fun d => List.range' (s.place d.addr) d.len.toNat

/-- The bytes of some buffers, one buffer after another. -/
def contents (s : Space) (buffers : List Descriptor) : List UInt8 :=
  (places s buffers).map s.ram.store.byte

/-- Every one of the buffers grants the access as a whole. -/
def Allows (s : Space) (access : Rights) (buffers : List Descriptor) : Prop :=
  ∀ d ∈ buffers, s.check d.addr d.len.toNat access = .ok ()

theorem Allows.of_sameMap {s t : Space} {access : Rights} {buffers : List Descriptor}
    (allows : Allows s access buffers) (same : SameMap s t) : Allows t access buffers :=
  fun d member => (same.check ..).trans (allows d member)

section Buffers

variable {s : Space} {d : Descriptor} {buffers front back : List Descriptor}

@[simp] theorem capacity_nil : capacity [] = 0 := rfl

@[simp] theorem capacity_cons : capacity (d :: buffers) = d.len.toNat + capacity buffers := rfl

@[simp] theorem places_nil : places s [] = [] := rfl

@[simp] theorem places_cons :
    places s (d :: buffers) = List.range' (s.place d.addr) d.len.toNat ++ places s buffers := rfl

@[simp] theorem length_places : (places s buffers).length = capacity buffers := by
  induction buffers with
  | nil => rfl
  | cons d buffers ih => rw [places_cons, List.length_append, List.length_range', ih, capacity_cons]

@[simp] theorem length_contents : (contents s buffers).length = capacity buffers := by
  rw [contents, List.length_map, length_places]

@[simp] theorem contents_nil : contents s [] = [] := rfl

theorem read_eq_map_range' (store : Store) (a n : Nat) :
    store.read a n = (List.range' a n).map store.byte := by
  rw [Store.read, List.range'_eq_map_range, List.map_map]
  rfl

@[simp] theorem contents_cons :
    contents s (d :: buffers) =
      s.ram.store.read (s.place d.addr) d.len.toNat ++ contents s buffers := by
  rw [contents, places_cons, List.map_append, read_eq_map_range', contents]

/-- The total in a word of 64 bits loses what a word cannot hold. -/
theorem toNat_totalLength (buffers : List Descriptor) :
    (Chain.totalLength buffers).toNat = capacity buffers % 2 ^ 64 := by
  -- Sums modulo a power of two can be reduced once, at the end.
  have onward (total : UInt64) :
      (buffers.foldl (fun total d => total + d.len.toUInt64) total).toNat =
        (total.toNat + capacity buffers) % 2 ^ 64 := by
    induction buffers generalizing total with
    | nil => exact (Nat.mod_eq_of_lt total.toNat_lt).symm
    | cons d buffers ih =>
      rw [List.foldl_cons, ih, UInt64.toNat_add, UInt32.toNat_toUInt64, Nat.mod_add_mod,
        Nat.add_assoc, capacity_cons]
  rw [Chain.totalLength, onward, UInt64.toNat_zero, Nat.zero_add]

theorem capacity_le (buffers : List Descriptor) :
    capacity buffers ≤ buffers.length * (2 ^ 32 - 1) := by
  induction buffers with
  | nil => exact Nat.zero_le _
  | cons d buffers ih =>
    have bound := d.len.toNat_lt
    rw [capacity_cons, List.length_cons, Nat.succ_mul]
    omega

end Buffers

/-! ### Pieces -/

/-- The parts of some buffers that a transfer of `left` bytes uses: each buffer from its start, and
none once nothing is left. -/
def pieces : List Descriptor → Nat → List Descriptor
  | [], _ => []
  | d :: buffers, left =>
    if left = 0 then []
    else { d with len := .ofNat (min d.len.toNat left) } :: pieces buffers (left - d.len.toNat)

section Pieces

variable {s : Space} {d : Descriptor} {buffers : List Descriptor} {left : Nat}

@[simp] theorem pieces_zero : pieces buffers 0 = [] := by
  cases buffers <;> rfl

theorem pieces_cons (some : 0 < left) :
    pieces (d :: buffers) left =
      { d with len := .ofNat (min d.len.toNat left) } :: pieces buffers (left - d.len.toNat) := by
  rw [pieces, if_neg (Nat.ne_of_gt some)]

theorem toNat_piece (d : Descriptor) (left : Nat) :
    (UInt32.ofNat (min d.len.toNat left)).toNat = min d.len.toNat left := by
  have bound := d.len.toNat_lt
  rw [UInt32.toNat_ofNat', Nat.mod_eq_of_lt (by omega)]

theorem capacity_pieces (buffers : List Descriptor) (left : Nat) :
    capacity (pieces buffers left) = min left (capacity buffers) := by
  induction buffers generalizing left with
  | nil => exact (Nat.min_zero left).symm
  | cons d buffers ih =>
    rcases Nat.eq_zero_or_pos left with rfl | some
    · rw [pieces_zero, capacity_nil, Nat.zero_min]
    · -- A buffer that is longer than what is left takes all of it.
      rw [pieces_cons some, capacity_cons, capacity_cons, toNat_piece, ih]
      omega

/-- The pieces are the front of the sequence of bytes that the buffers stand for. -/
theorem places_pieces (s : Space) (buffers : List Descriptor) (left : Nat) :
    places s (pieces buffers left) = (places s buffers).take left := by
  induction buffers generalizing left with
  | nil => rw [pieces, places_nil, List.take_nil]
  | cons d buffers ih =>
    rcases Nat.eq_zero_or_pos left with rfl | some
    · rw [pieces_zero, places_nil, List.take_zero]
    · have front (a n : Nat) : (List.range' a n).take left = List.range' a (min n left) := by
        rw [List.range'_eq_map_range, List.range'_eq_map_range, ← List.map_take, List.take_range,
          Nat.min_comm]
      rw [pieces_cons some, places_cons, places_cons, toNat_piece, ih, List.take_append, front,
        List.length_range']

theorem contents_pieces (s : Space) (buffers : List Descriptor) (left : Nat) :
    contents s (pieces buffers left) = (contents s buffers).take left := by
  rw [contents, places_pieces, List.map_take, contents]

/-- The front of a range that passed a check is there. It may be empty if the range is. -/
theorem locate_front (sound : s.ram.WellFormed) {addr : UInt64} {len n : Nat} {access : Rights}
    (passed : s.check addr len access = .ok ()) (short : n ≤ len) (all : n = 0 → len = 0) :
    ∃ a, s.locate addr n access = .ok a := by
  obtain ⟨a, located⟩ := (s.check_eq_ok_iff addr len access).mp passed
  rcases Nat.eq_zero_or_pos n with none | some
  · rw [none, ← all none]
    exact ⟨a, located⟩
  · -- What is not empty lies in the one region that holds the whole range.
    have itself : access.includes access = true :=
      Rights.includes_iff.mpr ⟨id, id⟩
    exact ⟨_, Space.locate_part (k := 0) sound located rfl (by omega) some itself⟩

/-- The pieces of buffers that allow an access allow it. -/
theorem Allows.pieces (sound : s.ram.WellFormed) {access : Rights}
    (allows : Allows s access buffers) (left : Nat) : Allows s access (pieces buffers left) := by
  induction buffers generalizing left with
  | nil => exact allows
  | cons d buffers ih =>
    obtain ⟨passed, others⟩ := List.forall_mem_cons.mp allows
    rcases Nat.eq_zero_or_pos left with rfl | some
    · exact List.forall_mem_nil _
    · rw [pieces_cons some]
      refine List.forall_mem_cons.mpr ⟨?_, ih others _⟩
      obtain ⟨a, located⟩ := locate_front sound passed (Nat.min_le_left _ left) (by omega)
      rw [toNat_piece]
      exact (s.check_eq_ok_iff ..).mpr ⟨a, located⟩

end Pieces

/-! ### Buffers of chains -/

theorem Virtqueue.head_of_nextChain (q : Virtqueue) {s : Space} {chain : Chain}
    (found : q.nextChain s = .ok (some chain)) :
    ∃ head, q.nextHead s = .ok (some head) ∧ q.chainAt s head = .ok chain := by
  simp only [nextChain] at found
  split at found
  · cases found
  · cases found
  next head offered =>
    split at found
    · cases found
    next walked =>
      cases found
      exact ⟨head, offered, walked⟩

/-- A chain that is found is bounded, and every buffer of it is granted what its direction needs. -/
theorem Virtqueue.chainAt_bounded {q : Virtqueue} {s : Space} (sound : s.ram.WellFormed)
    {head : UInt16} {chain : Chain} (done : q.chainAt s head = .ok chain) :
    chain.descriptors.length ≤ q.layout.size.toNat + maxIndirect ∧
      ∀ d ∈ chain.descriptors, Granted s d := by
  simp only [chainAt] at done
  split at done
  · cases done
  next taken walked =>
    cases done
    obtain ⟨path, trail, short, collects⟩ := (follow_eq_ok_iff ..).mp walked
    rcases (collects_iff trail false [] taken).mp collects with
      ⟨_, admitted, rfl⟩ | ⟨front, last, rfl, _, admitted, entered⟩
    -- The walk stayed in the queue's own table.
    · constructor
      · simp only [List.append_nil, List.reverse_reverse, List.length_map]
        exact Nat.le_add_right_of_le short
      · simpa using admitted.granted
    · -- The walk ended with a table, which is a path of its own.
      obtain ⟨_, _, buffers, ⟨n, _, inner, _, most, _, _, way, _, rfl⟩, nested, rfl⟩ :=
        (q.enter_eq_ok_iff sound _ _ _ _).mp entered
      have within := way.length_le
      constructor
      · simp only [List.length_reverse, List.length_append, List.length_map, List.length_nil,
          List.length_cons, maxIndirect] at short ⊢
        omega
      · intro d member
        have listed : d ∈ front.map Hop.desc ∨ d ∈ inner.map Hop.desc := by
          simpa [or_comm] using member
        rcases listed with outer | inner
        · exact admitted.granted d outer
        · exact nested.granted d inner

/-- The buffers of a kind allow what that kind needs. -/
theorem allows_filter {s : Space} {descriptors : List Descriptor} {kind : Descriptor → Bool}
    {access : Rights} (granted : ∀ d ∈ descriptors, Granted s d)
    (needs : ∀ d, kind d = true → (if d.isWritable then Rights.writing else .reading) = access) :
    Allows s access (descriptors.filter kind) := by
  intro d member
  obtain ⟨listed, kind⟩ := List.mem_filter.mp member
  rw [← needs d kind]
  exact granted d listed

/-- No table is long enough for the lengths of its buffers to go beyond a word of 64 bits. -/
theorem toNat_totalLength_of_bounded {chain : Chain} {size : UInt16}
    (bounded : chain.descriptors.length ≤ size.toNat + maxIndirect) (kind : Descriptor → Bool) :
    (Chain.totalLength (chain.descriptors.filter kind)).toNat =
      capacity (chain.descriptors.filter kind) := by
  have fewer := List.length_filter_le kind chain.descriptors
  have total := capacity_le (chain.descriptors.filter kind)
  have small := size.toNat_lt
  rw [maxIndirect] at bounded
  rw [toNat_totalLength]
  exact Nat.mod_eq_of_lt (by omega)

end Queue

namespace Machine

open Queue (Virtqueue Allows capacity)

/-- What a backend knows of a chain that it was just handed. -/
theorem takeChain_handed {m m' : Machine} {number : Nat} {q : Virtqueue} {chain : Chain}
    (sound : m.ram.WellFormed) (live : m.liveQueue number = .ok q)
    (taken : m.takeChain number = (m', .ok (some chain))) :
    m'.liveQueue number = .ok q.stepAvailable ∧ m'.space q.stepAvailable = m.space q ∧
      Allows (m.space q) .reading chain.readable ∧ Allows (m.space q) .writing chain.writable ∧
      chain.readableLength.toNat = capacity chain.readable ∧
      chain.writableLength.toNat = capacity chain.writable := by
  obtain ⟨found, rfl⟩ := (takeChain_eq_ok_iff live _).mp taken
  obtain ⟨head, _, walked⟩ := q.head_of_nextChain found
  obtain ⟨bounded, granted⟩ := q.chainAt_bounded (s := m.space q) sound walked
  have readable : Allows (m.space q) .reading chain.readable :=
    Queue.allows_filter granted fun d kind => if_neg (by simpa using kind)
  have writable : Allows (m.space q) .writing chain.writable :=
    Queue.allows_filter granted fun d kind => if_pos kind
  exact ⟨liveQueue_modifyQueue live rfl rfl, rfl, readable, writable,
    Queue.toNat_totalLength_of_bounded bounded _, Queue.toNat_totalLength_of_bounded bounded _⟩

end Machine

end VirtioMmio
