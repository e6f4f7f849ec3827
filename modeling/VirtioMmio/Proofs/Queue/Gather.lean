import VirtioMmio.Proofs.Queue.Buffers

/-!
Gathering. What is filled is the front of the readable buffers taken as one sequence, and the rest
of the device's buffer stays as it is. `gatherAt` is the same transfer as a loop over positions in
words of 64 bits; by `gatherAt_eq` none of its sums, differences and slices is out of range. Main
result: `gather_exact`.
-/

namespace VirtioMmio

open Vring (Chain Descriptor)

namespace Queue

open Dma (Space)

/-! ### Positions -/

/-- Gathering as a loop over positions: `copied` bytes of the device's buffer are filled. There is
no result if a difference, a sum or a slice is out of range. -/
def gatherAt (s : Space) :
    List Descriptor → Nat → List UInt8 → Option (List UInt8 × Except MemoryError Nat)
  | [], copied, buffer => some (buffer, .ok copied)
  | d :: buffers, copied, buffer =>
    if copied = buffer.length then some (buffer, .ok copied)
    else if buffer.length < copied then none
    else
      let n := min d.len.toNat (buffer.length - copied)
      if 2 ^ 64 ≤ copied + n ∨ buffer.length < copied + n then none
      else
        match s.read d.addr n with
        | .error e => some (buffer, .error e)
        | .ok bytes =>
          gatherAt s buffers (copied + n) (buffer.take copied ++ bytes ++ buffer.drop (copied + n))

theorem length_of_read {s : Space} {addr : UInt64} {len : Nat} {bytes : List UInt8}
    (done : s.read addr len = .ok bytes) : bytes.length = len := by
  obtain ⟨a, _, rfl⟩ := Space.locate_of_read done
  exact Memory.Store.length_read ..

/-- No position is out of range, whatever the chain and whatever memory refuses. -/
theorem gatherAt_eq (s : Space) (buffers : List Descriptor) (filled rest : List UInt8)
    (fits : (filled ++ rest).length < 2 ^ 64) :
    gatherAt s buffers filled.length (filled ++ rest) = some (gather s buffers filled rest) := by
  -- At every position the bytes filled and the bytes left make up the whole buffer.
  induction buffers generalizing filled rest with
  | nil => rfl
  | cons d buffers ih =>
    rw [List.length_append] at fits
    rcases Nat.eq_zero_or_pos rest.length with none | some
    · obtain rfl := List.eq_nil_of_length_eq_zero none
      rw [gatherAt, if_pos (by simp)]
      simp [gather]
    · have present : rest.isEmpty = false :=
        List.isEmpty_eq_false_iff.mpr (List.ne_nil_of_length_pos some)
      simp only [gatherAt, gather, List.length_append, Nat.add_sub_cancel_left, present,
        Bool.false_eq_true, if_false]
      rw [if_neg (by omega), if_neg (by omega), if_neg (by omega)]
      cases done : s.read d.addr (min d.len.toNat rest.length) with
      | error e => rfl
      | ok bytes =>
        have exact := length_of_read done
        have front : (filled ++ rest).take filled.length = filled := List.take_left
        have back : (filled ++ rest).drop (filled.length + min d.len.toNat rest.length) =
            rest.drop (min d.len.toNat rest.length) := by
          rw [List.drop_append, List.drop_eq_nil_of_le (Nat.le_add_right _ _),
            Nat.add_sub_cancel_left, List.nil_append]
        -- The bytes that were read take the place of as many bytes of the buffer.
        have kept :
            (filled ++ bytes ++ rest.drop (min d.len.toNat rest.length)).length < 2 ^ 64 := by
          simp only [List.length_append, List.length_drop, exact]
          omega
        have later := ih (filled ++ bytes) (rest.drop (min d.len.toNat rest.length)) kept
        rw [List.length_append, exact] at later
        simp only [front, back, later]

/-! ### Result -/

/-- If the pieces that are reached are readable, they are what is filled. -/
theorem gather_eq {s : Space} {buffers : List Descriptor} {rest : List UInt8}
    (allows : Allows s .reading (pieces buffers rest.length)) (filled : List UInt8) :
    gather s buffers filled rest =
      (filled ++ contents s (pieces buffers rest.length) ++
          rest.drop (capacity (pieces buffers rest.length)),
        .ok (filled.length + capacity (pieces buffers rest.length))) := by
  induction buffers generalizing filled rest with
  | nil => simp [gather, pieces]
  | cons d buffers ih =>
    rcases Nat.eq_zero_or_pos rest.length with none | some
    · obtain rfl := List.eq_nil_of_length_eq_zero none
      simp [gather]
    · have present : rest.isEmpty = false :=
        List.isEmpty_eq_false_iff.mpr (List.ne_nil_of_length_pos some)
      rw [pieces_cons some] at allows ⊢
      obtain ⟨passed, others⟩ := List.forall_mem_cons.mp allows
      rw [toNat_piece] at passed
      -- The next buffer finds as much left as the pieces say.
      have shorter : (rest.drop (min d.len.toNat rest.length)).length =
          rest.length - d.len.toNat := by
        rw [List.length_drop]
        omega
      rw [← shorter] at others ⊢
      simp only [gather, present, Bool.false_eq_true, if_false, Space.read_of_check passed,
        ih others]
      simp only [contents_cons, capacity_cons, toNat_piece, List.length_append,
        Memory.Store.length_read, List.drop_drop, List.append_assoc, Nat.add_assoc]

/-- The contents of buffers are what is read from one after another. -/
theorem Allows.images {s : Space} {buffers : List Descriptor} (allows : Allows s .reading buffers) :
    ∃ images : List (List UInt8),
      buffers.map (fun d => s.read d.addr d.len.toNat) = images.map .ok ∧
        images.flatten = contents s buffers := by
  induction buffers with
  | nil => exact ⟨[], rfl, rfl⟩
  | cons d buffers ih =>
    obtain ⟨passed, others⟩ := List.forall_mem_cons.mp allows
    obtain ⟨images, all, joined⟩ := ih others
    refine ⟨s.ram.store.read (s.place d.addr) d.len.toNat :: images, ?_, ?_⟩
    · rw [List.map_cons, List.map_cons, all, Space.read_of_check passed]
    · rw [List.flatten_cons, joined, contents_cons]

end Queue

namespace Machine

open Queue (Virtqueue Allows capacity gatherAt)

/-- Gathering from buffers that are all readable fills the device's buffer with the front of what
they hold, one after another, as far as either goes. Nothing else changes, and no position is out of
range. The buffers of a chain that was just taken are all readable, and the lengths of such a chain
are exact. -/
theorem gather_exact {m : Machine} {number : Nat} {q : Virtqueue} (sound : m.ram.WellFormed)
    (live : m.liveQueue number = .ok q) :
    (∀ (chain : Chain) (buffer : List UInt8), Allows (m.space q) .reading chain.readable →
      let n := min buffer.length (capacity chain.readable)
      ∃ images : List (List UInt8),
        chain.readable.map (fun d => (m.space q).read d.addr d.len.toNat) = images.map .ok ∧
        m.gather number chain buffer = (m, images.flatten.take n ++ buffer.drop n, .ok n)) ∧
      (∀ (chain : Chain) (buffer : List UInt8), buffer.length < 2 ^ 64 →
        gatherAt (m.space q) chain.readable 0 buffer =
          some (Queue.gather (m.space q) chain.readable [] buffer)) ∧
      (∀ chain : Chain, chain.readableLength.toNat = capacity chain.readable % 2 ^ 64) ∧
      ∀ (m' : Machine) (chain : Chain), m.takeChain number = (m', .ok (some chain)) →
        m'.liveQueue number = .ok q.stepAvailable ∧
        Allows (m'.space q.stepAvailable) .reading chain.readable ∧
        chain.readableLength.toNat = capacity chain.readable ∧
        chain.writableLength.toNat = capacity chain.writable := by
  refine ⟨?_, ?_, ?_, ?_⟩
  · intro chain buffer allows n
    obtain ⟨images, all, joined⟩ := allows.images
    refine ⟨images, all, ?_⟩
    have filled := Queue.gather_eq (allows.pieces (s := m.space q) sound buffer.length) []
    have total : capacity (Queue.pieces chain.readable buffer.length) = n :=
      Queue.capacity_pieces ..
    -- There may be less to take than the buffer holds.
    have front : (Queue.contents (m.space q) chain.readable).take buffer.length =
        images.flatten.take n := by
      rw [joined, List.take_eq_take_min, Queue.length_contents]
    simp only [gather, live, filled, total, Queue.contents_pieces, front, List.length_nil,
      Nat.zero_add, List.nil_append]
  · intro chain buffer fits
    exact Queue.gatherAt_eq (m.space q) chain.readable [] buffer fits
  · intro chain
    exact Queue.toNat_totalLength chain.readable
  · intro m' chain taken
    obtain ⟨live', same, readable, _, exact, exact'⟩ := takeChain_handed sound live taken
    rw [same]
    exact ⟨live', readable, exact, exact'⟩

/-! The sample machine with a request in two readable buffers, the second of which stands in the
indirect table. The device's buffer ends inside the second. -/

def requestMachine : Machine :=
  sampleMachine.withStore (((sampleRam.store.write 0x1400
    (Descriptor.encode ⟨0x1340, 4, 1, 1⟩)).write 0x1300 [1, 2, 3, 4, 5, 6, 7, 8]).write 0x1340
    [9, 10, 11, 12])

def requestChain : Chain where
  head := 1
  descriptors := [⟨0x1300, 8, 1, 0⟩, ⟨0x1340, 4, 1, 1⟩, ⟨0x1350, 4, 2, 0⟩]

theorem requestMachine_gathers :
    let m := (requestMachine.takeChain 0).1
    (requestMachine.takeChain 0).2 = .ok (some requestChain) ∧
      m.gather 0 requestChain (List.replicate 10 0) =
        (m, [1, 2, 3, 4, 5, 6, 7, 8, 9, 10], .ok 10) := by
  intro m
  have sound : requestMachine.ram.WellFormed := wellFormed_sampleRam.of_regions rfl
  have still : m.ram.WellFormed := wellFormed_sampleRam.of_regions (by decide +kernel)
  have taken : (requestMachine.takeChain 0).2 = .ok (some requestChain) := by decide +kernel
  have live : requestMachine.liveQueue 0 = .ok sampleQueue := rfl
  obtain ⟨_, _, _, handed⟩ := gather_exact sound live
  have whole : requestMachine.takeChain 0 = (m, .ok (some requestChain)) :=
    (Prod.eta _).symm.trans (congrArg (Prod.mk m) taken)
  obtain ⟨live', readable, _⟩ := handed m requestChain whole
  obtain ⟨images, all, done⟩ :=
    (gather_exact still live').1 requestChain (List.replicate 10 0) readable
  have request : requestChain.readable.map (fun d =>
      (m.space sampleQueue.stepAvailable).read d.addr d.len.toNat) =
        [.ok [1, 2, 3, 4, 5, 6, 7, 8], .ok [9, 10, 11, 12]] := by decide +kernel
  obtain rfl : images = [[1, 2, 3, 4, 5, 6, 7, 8], [9, 10, 11, 12]] :=
    List.map_injective_iff.mpr (fun _ _ => Except.ok.inj) (all.symm.trans request)
  exact ⟨taken, done⟩

end Machine

end VirtioMmio
