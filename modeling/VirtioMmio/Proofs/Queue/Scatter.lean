import VirtioMmio.Proofs.Machine.Failure
import VirtioMmio.Proofs.Queue.Buffers

/-!
Scattering. The buffers of a chain may overlap, so what is put is laid over guest RAM byte by byte,
in order, and later bytes win: `Store.overlay`. Where no two buffers share an address the bytes can
be read back: `map_byte_overlay`. `scatter_cons` is one step of a transfer and `scatter_front` any
number of them. A refusal stops the transfer with everything before it in place. Main result:
`scatter_exact`.
-/

namespace VirtioMmio

open Vring (Chain Descriptor)

namespace Memory.Store

/-- The store with single bytes written one after another. -/
def overlay (store : Store) (writes : List (Nat × UInt8)) : Store :=
  writes.foldl (fun store w => store.set w.1 w.2) store

section Overlay

variable {store : Store}

theorem overlay_append (front back : List (Nat × UInt8)) :
    store.overlay (front ++ back) = (store.overlay front).overlay back :=
  List.foldl_append

theorem write_eq_overlay (store : Store) (a : Nat) (bytes : List UInt8) :
    store.write a bytes = store.overlay ((List.range' a bytes.length).zip bytes) := by
  induction bytes generalizing store a with
  | nil => rfl
  | cons b bytes ih =>
    rw [write, ih]
    rfl

theorem byte_overlay_of_not_mem {places : List Nat} {bytes : List UInt8} {a : Nat}
    (elsewhere : a ∉ places) : (store.overlay (places.zip bytes)).byte a = store.byte a := by
  induction places generalizing store bytes with
  | nil => rfl
  | cons p places ih =>
    obtain ⟨other, later⟩ := not_or.mp (mt List.mem_cons.mpr elsewhere)
    cases bytes with
    | nil => rfl
    | cons b bytes =>
      rw [List.zip_cons_cons]
      refine (ih later).trans ?_
      rw [byte_set, if_neg (Ne.symm other)]

/-- Where no place comes twice, the bytes laid down stand there afterwards. -/
theorem map_byte_overlay (store : Store) {places : List Nat} (once : places.Nodup)
    (bytes : List UInt8) :
    places.map (store.overlay (places.zip bytes)).byte =
      bytes.take places.length ++ (places.map store.byte).drop bytes.length := by
  induction places generalizing store bytes with
  | nil => simp
  | cons p places ih =>
    obtain ⟨new, once⟩ := List.nodup_cons.mp once
    cases bytes with
    | nil => rfl
    | cons b bytes =>
      -- The first place does not come again: it keeps its byte, and the others see no change.
      have kept : places.map (store.set p b).byte = places.map store.byte := by
        apply List.map_congr_left
        intro x member
        have other : p ≠ x := fun same => new (same ▸ member)
        rw [byte_set, if_neg other]
      have first : ((store.set p b).overlay (places.zip bytes)).byte p = b := by
        rw [byte_overlay_of_not_mem new, byte_set, if_pos rfl]
      have later := ih (store.set p b) once bytes
      rw [kept] at later
      rw [List.map_cons, List.map_cons, List.length_cons, List.length_cons, List.take_succ_cons,
        List.drop_succ_cons, List.cons_append, ← later]
      exact congrArg (· :: _) first

end Overlay

end Memory.Store

namespace Queue

open Dma (Space)
open Dma.Space (SameMap)
open Memory (InRange Separate)

/-- Guest RAM with `data` laid over some buffers, as far as either goes. -/
def laid (s : Space) (buffers : List Descriptor) (data : List UInt8) : Memory.Ram :=
  { s.ram with store := s.ram.store.overlay ((places s buffers).zip data) }

section Scatter

variable {s : Space} {buffers front back : List Descriptor} {d : Descriptor} {data : List UInt8}
  {copied : Nat}

/-! ### One buffer -/

/-- A transfer that has pieces left is at the first of them. -/
theorem pieces_eq_cons {left : Nat} (split : pieces buffers left = d :: back) :
    ∃ b rest, buffers = b :: rest ∧ 0 < left ∧ d = { b with len := .ofNat (min b.len.toNat left) } ∧
      pieces rest (left - b.len.toNat) = back := by
  cases buffers with
  | nil => cases split
  | cons b rest =>
    rcases Nat.eq_zero_or_pos left with rfl | some
    · rw [pieces_zero] at split
      cases split
    · rw [pieces_cons some] at split
      cases split
      exact ⟨b, rest, rfl, some, rfl, rfl⟩

theorem laid_singleton (within : d.len.toNat ≤ data.length) :
    laid s [d] data =
      { s.ram with
        store := s.ram.store.write (s.place d.addr) (data.take d.len.toNat) } := by
  have exact : (data.take d.len.toNat).length = d.len.toNat := List.length_take_of_le within
  -- A zip ends with the shorter of its lists.
  have short : (places s [d]).zip data =
      (List.range' (s.place d.addr) d.len.toNat).zip (data.take d.len.toNat) := by
    rw [List.zip_eq_zip_take_min, length_places, capacity_cons, capacity_nil, Nat.add_zero,
      Nat.min_eq_left within, places_cons, places_nil, List.append_nil,
      List.take_of_length_le (Nat.le_of_eq List.length_range')]
  rw [laid, short, Memory.Store.write_eq_overlay, exact]

/-- Data laid over one buffer, and the rest of it over others, is data laid over all of them. -/
theorem laid_cons (within : d.len.toNat ≤ data.length) :
    laid { s with ram := laid s [d] data } buffers (data.drop d.len.toNat) =
      laid s (d :: buffers) data := by
  have exact : (data.take d.len.toNat).length = d.len.toNat := List.length_take_of_le within
  have split : (places s (d :: buffers)).zip data =
      (List.range' (s.place d.addr) d.len.toNat).zip (data.take d.len.toNat) ++
        (places s buffers).zip (data.drop d.len.toNat) := by
    rw [← List.zip_append (List.length_range'.trans exact.symm), List.take_append_drop,
      places_cons]
  rw [laid_singleton within, laid, laid, split, Memory.Store.overlay_append,
    Memory.Store.write_eq_overlay, exact]
  rfl

/-- One step puts the first piece. -/
theorem scatter_cons {b : Descriptor} (some : 0 < data.length)
    (piece : d = { b with len := .ofNat (min b.len.toNat data.length) }) :
    scatter s (b :: buffers) copied data =
      match s.check d.addr d.len.toNat .writing with
      | .error e => (s.ram, .error e)
      | .ok () =>
        scatter { s with ram := laid s [d] data } buffers (copied + d.len.toNat)
          (data.drop d.len.toNat) := by
  have size : d.len.toNat = min b.len.toNat data.length := by
    rw [piece]
    exact toNat_piece b data.length
  have start : d.addr = b.addr := by rw [piece]
  have within : d.len.toNat ≤ data.length := by omega
  have exact : (data.take d.len.toNat).length = d.len.toNat := List.length_take_of_le within
  have present : data.isEmpty = false :=
    List.isEmpty_eq_false_iff.mpr (List.ne_nil_of_length_pos some)
  simp only [scatter, present, Bool.false_eq_true, if_false, ← size, ← start]
  cases passed : s.check d.addr d.len.toNat .writing with
  | error e =>
    rw [← exact] at passed
    rw [Space.write_of_refused passed]
  | ok =>
    rw [← exact] at passed
    rw [Space.write_of_check passed, laid_singleton within]

/-! ### Many buffers -/

/-- What is granted first is put first; then the transfer goes on with the pieces that remain. -/
theorem scatter_front (split : pieces buffers data.length = front ++ back)
    (allows : Allows s .writing front) (copied : Nat) :
    ∃ rest, pieces rest (data.drop (capacity front)).length = back ∧
      scatter s buffers copied data =
        scatter { s with ram := laid s front data } rest (copied + capacity front)
          (data.drop (capacity front)) := by
  -- The induction is on what is granted; every step moves memory, buffers and data on.
  induction front generalizing s buffers data copied with
  | nil => exact ⟨buffers, split, rfl⟩
  | cons d front ih =>
    obtain ⟨b, rest, rfl, some, piece, split⟩ := pieces_eq_cons split
    obtain ⟨passed, others⟩ := List.forall_mem_cons.mp allows
    have size : d.len.toNat = min b.len.toNat data.length := by
      rw [piece]
      exact toNat_piece b data.length
    have shorter : (data.drop d.len.toNat).length = data.length - b.len.toNat := by
      rw [List.length_drop]
      omega
    rw [← shorter] at split
    -- What was put changes bytes, and so no check.
    have still : Allows { s with ram := laid s [d] data } .writing front :=
      Allows.of_sameMap others (SameMap.withStore s _)
    obtain ⟨rest', remains, onward⟩ := ih split still (copied + d.len.toNat)
    rw [laid_cons (by omega), List.drop_drop, Nat.add_assoc] at onward
    rw [List.drop_drop] at remains
    refine ⟨rest', remains, ?_⟩
    rw [scatter_cons some piece, passed]
    exact onward

theorem scatter_done (done : pieces buffers data.length = []) :
    scatter s buffers copied data = (s.ram, .ok copied) := by
  cases buffers with
  | nil => rfl
  | cons b rest =>
    cases data with
    | nil => rfl
    | cons byte data =>
      rw [List.length_cons, pieces_cons (Nat.zero_lt_succ _)] at done
      cases done

theorem zip_take_length {α β : Type} (l : List α) (r : List β) :
    (l.take r.length).zip r = l.zip r :=
  calc (l.take r.length).zip r
    _ = (l.take r.length).zip (r.take r.length) := by rw [List.take_length]
    _ = (l.zip r).take r.length := List.take_zipWith.symm
    _ = l.zip r := List.take_of_length_le (List.length_zip ▸ Nat.min_le_right _ _)

/-- If every piece is granted, all of them are put. -/
theorem scatter_eq (allows : Allows s .writing (pieces buffers data.length)) (copied : Nat) :
    scatter s buffers copied data =
      (laid s buffers data, .ok (copied + min data.length (capacity buffers))) := by
  have whole : pieces buffers data.length = pieces buffers data.length ++ [] :=
    (List.append_nil _).symm
  -- Past the last piece there is no data to lay.
  have used : laid s (pieces buffers data.length) data = laid s buffers data := by
    rw [laid, places_pieces, zip_take_length, laid]
  obtain ⟨rest, done, onward⟩ := scatter_front whole allows copied
  rw [onward, scatter_done done, capacity_pieces, used]

/-- The first piece that is refused stops the transfer after those before it. -/
theorem scatter_refused {e : MemoryError}
    (split : pieces buffers data.length = front ++ d :: back) (allows : Allows s .writing front)
    (refused : s.check d.addr d.len.toNat .writing = .error e) (copied : Nat) :
    scatter s buffers copied data = (laid s front data, .error e) := by
  obtain ⟨rest, remains, onward⟩ := scatter_front split allows copied
  obtain ⟨b, rest, rfl, some, piece, _⟩ := pieces_eq_cons remains
  have still : ({ s with ram := laid s front data } : Space).check d.addr d.len.toNat .writing =
      .error e := ((SameMap.withStore s _).check ..).trans refused
  rw [onward, scatter_cons some piece, still]

/-! ### Reading back -/

/-- Buffers that share no address share no place: all of them are moved by the same distance. -/
theorem nodup_places {access : Memory.Rights} (allows : Allows s access buffers)
    (apart : buffers.Pairwise fun d e => Separate d.addr d.len.toNat e.addr e.len.toNat) :
    (places s buffers).Nodup := by
  induction buffers with
  | nil => exact List.nodup_nil
  | cons d buffers ih =>
    obtain ⟨passed, others⟩ := List.forall_mem_cons.mp allows
    obtain ⟨beside, apart⟩ := List.pairwise_cons.mp apart
    rw [places_cons]
    refine List.nodup_append.mpr ⟨List.nodup_range', ih others apart, ?_⟩
    rintro a inFirst b inLater rfl
    obtain ⟨e, member, inSecond⟩ := List.mem_flatMap.mp inLater
    rw [List.mem_range'_1] at inFirst inSecond
    have distance := Space.locate_distance (Space.locate_of_check passed)
      (Space.locate_of_check (others e member))
    -- The address that both buffers would have at this place.
    apply beside e member (d.addr.toNat + (a - s.place d.addr))
    simp only [InRange]
    omega

theorem contents_laid (once : (places s buffers).Nodup) (data : List UInt8) :
    contents { s with ram := laid s buffers data } buffers =
      data.take (min data.length (capacity buffers)) ++
        (contents s buffers).drop (min data.length (capacity buffers)) := by
  have back := Memory.Store.map_byte_overlay s.ram.store once data
  rw [length_places] at back
  have front : data.take (min data.length (capacity buffers)) = data.take (capacity buffers) := by
    rw [Nat.min_comm, ← List.take_eq_take_min]
  have rest : (contents s buffers).drop (min data.length (capacity buffers)) =
      (contents s buffers).drop data.length := by
    rw [← length_contents (s := s), ← List.drop_eq_drop_min]
  rw [front, rest]
  exact back

end Scatter

end Queue

namespace Machine

open Memory (Separate separate_iff)
open Queue (Virtqueue Allows capacity contents pieces places)

/-- Scattering lays the data over the writable buffers, one after another and each from its start,
as far as either goes, and changes no other byte. It goes as far as the pieces that it comes to are
granted: the first one that is refused fails the queue, with those before it in place. The pieces of
buffers that are writable as wholes are granted, so the buffers of a chain that was just taken
receive all of it; and if no two of them share an address, what they hold afterwards is the data and
then what they held before. -/
theorem scatter_exact {m : Machine} {number : Nat} {q : Virtqueue} (sound : m.ram.WellFormed)
    (live : m.liveQueue number = .ok q) :
    (∀ (chain : Chain) (data : List UInt8),
      Allows (m.space q) .writing (pieces chain.writable data.length) →
      let n := min data.length (capacity chain.writable)
      let store := m.ram.store.overlay ((places (m.space q) chain.writable).zip data)
      m.scatter number chain data = (m.withStore store, .ok n) ∧
        ∀ a, a ∉ (places (m.space q) chain.writable).take n →
          store.byte a = m.ram.store.byte a) ∧
      (∀ (chain : Chain) (data : List UInt8) (front back : List Descriptor) (d : Descriptor)
        (e : MemoryError), pieces chain.writable data.length = front ++ d :: back →
        Allows (m.space q) .writing front →
        (m.space q).check d.addr d.len.toNat .writing = .error e →
        let store := m.ram.store.overlay ((places (m.space q) front).zip data)
        m.scatter number chain data =
            ((m.withStore store).fail number, .error (.buffer e)) ∧
          Breaks m number q ((m.withStore store).fail number)) ∧
      (∀ chain : Chain, Allows (m.space q) .writing chain.writable →
        (∀ left, Allows (m.space q) .writing (pieces chain.writable left)) ∧
          (chain.writable.Pairwise (fun d e =>
              Separate d.addr d.len.toNat e.addr e.len.toNat) →
            ∀ data : List UInt8,
              let n := min data.length (capacity chain.writable)
              let store := m.ram.store.overlay ((places (m.space q) chain.writable).zip data)
              contents ((m.withStore store).space q) chain.writable =
                data.take n ++ (contents (m.space q) chain.writable).drop n)) ∧
      ∀ (m' : Machine) (chain : Chain), m.takeChain number = (m', .ok (some chain)) →
        m'.liveQueue number = .ok q.stepAvailable ∧
        Allows (m'.space q.stepAvailable) .writing chain.writable ∧
        chain.writableLength.toNat = capacity chain.writable := by
  refine ⟨?_, ?_, ?_, ?_⟩
  · intro chain data allows n store
    have put := Queue.scatter_eq allows 0
    constructor
    · simp only [scatter, live, put, Nat.zero_add]
      rfl
    · intro a elsewhere
      -- The overlay is as long as the shorter of places and data, so it ends after `n` places.
      have used : ((places (m.space q) chain.writable).take n).zip data =
          (places (m.space q) chain.writable).zip data := by
        have size : n = min data.length (places (m.space q) chain.writable).length := by
          rw [Queue.length_places]
        rw [size, ← List.take_eq_take_min, Queue.zip_take_length]
      simp only [store, ← used]
      exact Memory.Store.byte_overlay_of_not_mem elsewhere
  · intro chain data front back d e split allows refused store
    have stopped := Queue.scatter_refused split allows refused 0
    constructor
    · simp only [scatter, live, stopped]
      rfl
    · exact breaks_fail live _
  · intro chain allows
    constructor
    · intro left
      exact allows.pieces (s := m.space q) sound left
    · intro apart data n store
      exact Queue.contents_laid (Queue.nodup_places allows apart) data
  · intro m' chain taken
    obtain ⟨live', same, _, writable, _, exact⟩ := takeChain_handed sound live taken
    rw [same]
    exact ⟨live', writable, exact⟩

theorem sampleChain_apart : sampleChain.writable.Pairwise fun d e =>
    Separate d.addr d.len.toNat e.addr e.len.toNat := by
  apply List.pairwise_pair.mpr
  rw [separate_iff (by decide) (by decide)]
  decide

/-- A chain that no queue hands out: there is no memory at its second buffer. -/
def strayChain : Chain where
  head := 1
  descriptors := [⟨0x1340, 4, 3, 1⟩, ⟨0x9000, 4, 2, 0⟩]

/-- The reply to the chain of the sample machine ends in the middle of the last buffer. The stray
chain takes the first four bytes of it. -/
theorem sampleMachine_scatters :
    let m := (sampleMachine.takeChain 0).1
    let reply := m.scatter 0 sampleChain [1, 2, 3, 4, 5, 6]
    (sampleMachine.takeChain 0).2 = .ok (some sampleChain) ∧ reply.2 = .ok 6 ∧
      contents (reply.1.space sampleQueue.stepAvailable) sampleChain.writable =
        [1, 2, 3, 4, 5, 6, 0, 0] ∧
      m.scatter 0 strayChain [1, 2, 3, 4, 5, 6] =
        ((m.withStore (m.ram.store.overlay
            [(0x1340, 1), (0x1341, 2), (0x1342, 3), (0x1343, 4)])).fail 0,
          .error (.buffer (.unmapped 0x9000 2))) := by
  intro m reply
  have still : m.ram.WellFormed := wellFormed_sampleRam.of_regions (by decide +kernel)
  have taken : (sampleMachine.takeChain 0).2 = .ok (some sampleChain) := by decide +kernel
  have live : sampleMachine.liveQueue 0 = .ok sampleQueue := rfl
  obtain ⟨_, _, _, handed⟩ := scatter_exact wellFormed_sampleRam live
  obtain ⟨live', writable, _⟩ := handed m sampleChain (Prod.ext rfl taken)
  obtain ⟨put, stop, readBack, _⟩ := scatter_exact still live'
  obtain ⟨granted, back⟩ := readBack sampleChain writable
  obtain ⟨done, _⟩ := put sampleChain [1, 2, 3, 4, 5, 6] (granted _)
  have before : contents (m.space sampleQueue.stepAvailable) sampleChain.writable =
      [0, 0, 0, 0, 0, 0, 0, 0] := by decide +kernel
  have after := back sampleChain_apart [1, 2, 3, 4, 5, 6]
  rw [before] at after
  have first : Allows (m.space sampleQueue.stepAvailable) .writing [⟨0x1340, 4, 3, 1⟩] :=
    List.forall_mem_singleton.mpr (by decide +kernel)
  have second : (m.space sampleQueue.stepAvailable).check 0x9000 2 .writing =
      .error (.unmapped 0x9000 2) := by decide +kernel
  have split : pieces strayChain.writable 6 = [⟨0x1340, 4, 3, 1⟩] ++ ⟨0x9000, 2, 2, 0⟩ :: [] := rfl
  obtain ⟨stopped, _⟩ := stop strayChain [1, 2, 3, 4, 5, 6] _ _ _ _ split first second
  refine ⟨taken, congrArg Prod.snd done, ?_, stopped⟩
  simp only [reply, done]
  exact after

end Machine

end VirtioMmio
