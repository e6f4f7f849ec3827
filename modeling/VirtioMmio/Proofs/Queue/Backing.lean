import VirtioMmio.Proofs.Queue.Gather
import VirtioMmio.Proofs.Queue.Scatter
import VirtioMmio.Proofs.Queue.Used

/-!
Queues whose rings are backed. The rings are found backed as wholes once, when a queue is brought
up; as long as the map stands, no access to a part of a ring is refused. Main results:
`granted_requests`, by which only a buffer that the driver named can be refused, and
`granted_transfers`, by which none of those is that passed when its chain was taken.
-/

namespace VirtioMmio

open Dma (Space)
open Dma.Space (SameMap)
open Memory (Rights)
open Vring (Chain Descriptor Layout Part)

theorem Vring.Layout.Backed.of_sameMap {l : Layout} {s t : Space} (backed : l.Backed s)
    (same : SameMap s t) : l.Backed t := by
  intro p
  obtain ⟨a, located⟩ := backed p
  exact ⟨a, (same.locate _ _ _).trans located⟩

namespace Queue

/-! ### Tables -/

/-- The entries of a table that is readable as a whole can be read. -/
theorem readsAt_of_locate {s : Space} (sound : s.ram.WellFormed) {table : UInt64} {len a : Nat}
    (located : s.locate table len .reading = .ok a) {i : UInt16}
    (within : 16 * i.toNat + 16 ≤ len) : ∃ d, ReadsAt s table i d := by
  have ends := (Space.locate_bounds located).1
  have start : (entryAddr table i).toNat = table.toNat + 16 * i.toNat :=
    toNat_entryAddr (by omega)
  have part := Space.locate_part sound located start within (by decide)
    (by decide : Rights.reading.includes .reading = true)
  refine ⟨.decode (s.ram.store.read (a + 16 * i.toNat) 16), ?_⟩
  rw [ReadsAt, Space.readDescriptor, Space.read_eq, part]
  rfl

theorem check_of_checkBuffer {s : Space} {seen : Bool} {d : Descriptor} {e : MemoryError}
    (refused : checkBuffer s seen d = .error (.buffer e)) :
    ∃ access, s.check d.addr d.len.toNat access = .error e := by
  simp only [checkBuffer] at refused
  split at refused
  · cases refused
  · split at refused
    next reason =>
      cases refused
      exact ⟨_, reason⟩
    next => cases refused

/-- A walk along entries that can all be read is refused nothing but a buffer, or whatever an
indirect entry leads to. -/
theorem follow_refused {s : Space} {table : UInt64} {count : UInt16}
    {enter : Descriptor → Bool → List Descriptor → Except QueueError (List Descriptor)}
    (listed : ∀ i : UInt16, i.toNat < count.toNat → ∃ d, ReadsAt s table i d) {budget : Nat}
    {index : UInt16} {seen : Bool} {taken : List Descriptor} {e : MemoryError}
    (refused : follow s table count enter budget index seen taken = .error (.buffer e)) :
    ∃ (i : UInt16) (d : Descriptor), i.toNat < count.toNat ∧ ReadsAt s table i d ∧
      ((∃ access, s.check d.addr d.len.toNat access = .error e) ∨
        ∃ seen taken, enter d seen taken = .error (.buffer e)) := by
  -- An entry that can be read is no reason itself: it is a buffer that is refused, or leads on.
  induction budget generalizing index seen taken with
  | zero =>
    rw [follow] at refused
    split at refused <;> cases refused
  | succ budget ih =>
    by_cases inside : index.toNat < count.toNat
    · obtain ⟨d, found⟩ := listed index inside
      rw [follow_step inside found] at refused
      split at refused
      · exact ⟨index, d, inside, found, .inr ⟨seen, taken, refused⟩⟩
      · split at refused
        next reason =>
          cases refused
          exact ⟨index, d, inside, found, .inl (check_of_checkBuffer reason)⟩
        next =>
          split at refused
          · exact ih refused
          · cases refused
    · have beyond : count ≤ index := by
        rw [UInt16.le_iff_toNat_le]
        omega
      rw [follow, if_pos beyond] at refused
      cases refused

/-- Memory refuses, for the reason `e`, something that the driver named: a buffer or a table in the
descriptor table of the queue, or a buffer in a table that is readable as a whole. -/
inductive RefusesNamed (q : Virtqueue) (s : Space) (e : MemoryError) : Prop
  | direct {i : UInt16} {d : Descriptor} {access : Rights} (inside : i < q.layout.size)
    (named : ReadsAt s q.layout.desc i d)
    (refused : s.check d.addr d.len.toNat access = .error e) : RefusesNamed q s e
  | nested {i j : UInt16} {table d : Descriptor} {access : Rights} (inside : i < q.layout.size)
    (named : ReadsAt s q.layout.desc i table)
    (readable : s.check table.addr table.len.toNat .reading = .ok ())
    (within : 16 * j.toNat + 16 ≤ table.len.toNat) (listed : ReadsAt s table.addr j d)
    (refused : s.check d.addr d.len.toNat access = .error e) : RefusesNamed q s e

/-- An indirect table is checked as a whole, so it is refused as a whole or not at all. -/
theorem followIndirect_refused {s : Space} (sound : s.ram.WellFormed) {table : Descriptor}
    {seen : Bool} {taken : List Descriptor} {e : MemoryError}
    (refused : followIndirect s table seen taken = .error (.buffer e)) :
    s.check table.addr table.len.toNat .reading = .error e ∨
      s.check table.addr table.len.toNat .reading = .ok () ∧
        ∃ (j : UInt16) (d : Descriptor) (access : Rights),
          16 * j.toNat + 16 ≤ table.len.toNat ∧ ReadsAt s table.addr j d ∧
          s.check d.addr d.len.toNat access = .error e := by
  simp only [followIndirect] at refused
  split at refused
  · cases refused
  next shape =>
  simp only [not_or, maxIndirect] at shape
  split at refused
  next reason =>
    cases refused
    exact .inl reason
  next readable =>
    obtain ⟨a, located⟩ := (s.check_eq_ok_iff _ _ _).mp readable
    have count : (UInt16.ofNat (table.len.toNat / 16)).toNat = table.len.toNat / 16 := by
      rw [UInt16.toNat_ofNat', Nat.mod_eq_of_lt (by omega)]
    -- Readable as a whole, the table can be read entry by entry.
    have listed (j : UInt16) (inside : j.toNat < (UInt16.ofNat (table.len.toNat / 16)).toNat) :
        ∃ d, ReadsAt s table.addr j d :=
      readsAt_of_locate sound located (by omega)
    obtain ⟨j, d, inside, found, ⟨access, reason⟩ | ⟨_, _, nested⟩⟩ := follow_refused listed refused
    · exact .inr ⟨readable, j, d, access, by omega, found, reason⟩
    · cases nested

section Backed

variable {q : Virtqueue} {s : Space}

theorem chainAt_refused (sound : s.ram.WellFormed) (backed : q.layout.Backed s) {head : UInt16}
    {e : MemoryError} (refused : q.chainAt s head = .error (.buffer e)) : RefusesNamed q s e := by
  -- The descriptor table is backed, so only what its entries name can be refused.
  obtain ⟨a, located⟩ := backed .descriptor
  have listed (i : UInt16) (inside : i.toNat < q.layout.size.toNat) :
      ∃ d, ReadsAt s q.layout.desc i d := by
    refine readsAt_of_locate sound located ?_
    rw [Part.bytes]
    omega
  simp only [Virtqueue.chainAt] at refused
  split at refused
  next reason =>
    cases refused
    obtain ⟨i, d, inside, found, ⟨access, reason⟩ | ⟨_, _, entered⟩⟩ :=
      follow_refused listed reason
    · exact .direct (UInt16.lt_iff_toNat_lt.mpr inside) found reason
    · simp only [Virtqueue.enter] at entered
      split at entered
      · cases entered
      · have inside := UInt16.lt_iff_toNat_lt.mpr inside
        rcases followIndirect_refused sound entered with
          reason | ⟨readable, j, d', access, within, listed, reason⟩
        · exact .direct inside found reason
        · exact .nested inside found readable within listed reason
  next => cases refused

/-! ### Rings -/

theorem nextHead_refused (placed : q.layout.Placed) (sound : s.ram.WellFormed)
    (backed : q.layout.Backed s) {e : QueueError} (refused : q.nextHead s = .error e) :
    ∃ entries, e = .availOverrun entries := by
  obtain ⟨base, starts⟩ := backed .available
  have less : q.chainsTaken.toNat % q.layout.size.toNat < q.layout.size.toNat :=
    Nat.mod_lt _ placed.size_pos
  have index := read16_available sound starts (toNat_availIndexAddr placed)
    (by simp only [Part.bytes]; omega)
  have entry := read16_available sound starts (toNat_availEntryAddr placed)
    (by simp only [Part.bytes]; omega)
  simp only [Virtqueue.nextHead, index, entry] at refused
  split at refused
  · cases refused
  · split at refused
    · cases refused
      exact ⟨_, rfl⟩
    · cases refused

theorem nextChain_refused (placed : q.layout.Placed) (sound : s.ram.WellFormed)
    (backed : q.layout.Backed s) {e : MemoryError} (refused : q.nextChain s = .error (.buffer e)) :
    RefusesNamed q s e := by
  simp only [Virtqueue.nextChain] at refused
  split at refused
  next reason =>
    obtain ⟨_, rfl⟩ := nextHead_refused placed sound backed reason
    cases refused
  next => cases refused
  next =>
    split at refused
    next reason =>
      cases refused
      exact chainAt_refused sound backed reason
    next => cases refused

theorem wantsInterrupt_eq (sound : s.ram.WellFormed) (backed : q.layout.Backed s) :
    ∃ flags, s.read16 q.layout.avail = .ok flags ∧
      q.wantsInterrupt s = (flags &&& Virtqueue.noInterruptFlag == 0) := by
  obtain ⟨base, starts⟩ := backed .available
  have flags := read16_available (k := 0) sound starts rfl (by simp only [Part.bytes]; omega)
  refine ⟨_, flags, ?_⟩
  rw [Virtqueue.wantsInterrupt, flags]

theorem putWish_eq (sound : s.ram.WellFormed) (backed : q.layout.Backed s) (wanted : Bool) :
    ∃ ram, q.putWish s wanted = .ok ram := by
  obtain ⟨base, starts⟩ := backed .used
  have located := locate_used (k := 0) (m := 2) sound starts rfl
    (by simp only [Part.bytes]; omega) (by decide)
  rw [Virtqueue.putWish, Space.write16_eq, located]
  exact ⟨_, rfl⟩

theorem putUsed_ok (placed : q.layout.Placed) (sound : s.ram.WellFormed)
    (backed : q.layout.Backed s) (head : UInt16) (len : UInt32) :
    ∃ ram, q.putUsed s head len = (ram, .ok ()) := by
  obtain ⟨base, starts⟩ := backed .used
  have position : q.chainsReturned = .ofNat q.chainsReturned.toNat := UInt16.ofNat_toNat.symm
  exact ⟨_, putUsed_eq placed sound starts position head len⟩

end Backed

end Queue

namespace Machine

open Queue (RefusesNamed Virtqueue)

variable {m : Machine} {number : Nat} {q : Virtqueue}

theorem liveQueue_of_found (found : m.queues[number]? = some q) :
    m.liveQueue number = .ok q ∨ m.liveQueue number = .error .retired ∨
      m.liveQueue number = .error .failed := by
  simp only [liveQueue, found]
  split
  · exact .inr (.inl rfl)
  · split
    · exact .inr (.inr rfl)
    · exact .inl rfl

/-- As long as the rings of a virtqueue are backed, no access to them is refused. Its only requests
that can meet a refusal are those for a chain, and what is refused then is a buffer or a table that
the driver named. -/
theorem granted_requests (found : m.queues[number]? = some q) (placed : q.layout.Placed)
    (sound : m.ram.WellFormed) (backed : q.layout.Backed (m.space q)) :
    (∀ e, (m.takeChain number).2 = .error (.buffer e) → RefusesNamed q (m.space q) e) ∧
      (∀ head len e, (m.returnChain number head len).2 ≠ .error (.buffer e)) ∧
      (∀ wanted e, (m.askNotifications number wanted).2 ≠ .error (.buffer e)) ∧
      (m.liveQueue number = .ok q →
        (∀ head len, head < q.layout.size → (m.returnChain number head len).2 = .ok ()) ∧
        ∀ wanted, (m.askNotifications number wanted).2 = .ok ()) ∧
      ∃ flags, (m.space q).read16 q.layout.avail = .ok flags ∧
        m.wantsInterrupt number = (flags &&& Virtqueue.noInterruptFlag == 0) := by
  have wishes := Queue.wantsInterrupt_eq (s := m.space q) sound backed
  have wish (wanted : Bool) := Queue.putWish_eq (s := m.space q) sound backed wanted
  have used (head : UInt16) (len : UInt32) :=
    Queue.putUsed_ok (s := m.space q) placed sound backed head len
  have asks : m.wantsInterrupt number = q.wantsInterrupt (m.space q) := by
    rw [wantsInterrupt, found]
  refine ⟨?_, ?_, ?_, ?_, asks ▸ wishes⟩
  -- A virtqueue is live, retired or failed; the last two are refused without any access.
  · intro e refused
    rcases liveQueue_of_found found with live | live | live
    · exact Queue.nextChain_refused placed sound backed
        ((takeChain_eq_error_iff live _).mp refused)
    · simp only [takeChain, live, reduceCtorEq, Except.error.injEq] at refused
    · simp only [takeChain, live, reduceCtorEq, Except.error.injEq] at refused
  · intro head len e refused
    obtain ⟨ram, done⟩ := used head len
    rcases liveQueue_of_found found with live | live | live
    · simp only [returnChain, live, done] at refused
      split at refused <;> cases refused
    · simp only [returnChain, live, reduceCtorEq, Except.error.injEq] at refused
    · simp only [returnChain, live, reduceCtorEq, Except.error.injEq] at refused
  · intro wanted e refused
    obtain ⟨ram, done⟩ := wish wanted
    rcases liveQueue_of_found found with live | live | live
    · simp only [askNotifications, live, done, reduceCtorEq] at refused
    · simp only [askNotifications, live, reduceCtorEq, Except.error.injEq] at refused
    · simp only [askNotifications, live, reduceCtorEq, Except.error.injEq] at refused
  · intro live
    refine ⟨fun head len inside => ?_, fun wanted => ?_⟩
    · obtain ⟨ram, done⟩ := used head len
      have within : ¬ q.layout.size ≤ head := UInt16.not_le.mpr inside
      simp only [returnChain, live, if_neg within, done]
    · obtain ⟨ram, done⟩ := wish wanted
      simp only [askNotifications, live, done]

/-- A chain that was taken can be filled from and into while the virtqueue is live, as long as the
map stands. -/
theorem granted_transfers {m' : Machine} {q' : Virtqueue} {chain : Chain}
    (live : m.liveQueue number = .ok q) (sound : m.ram.WellFormed)
    (taken : (m.takeChain number).2 = .ok (some chain)) (live' : m'.liveQueue number = .ok q')
    (sound' : m'.ram.WellFormed) (same : SameMap (m.space q) (m'.space q')) :
    (∀ buffer, ∃ filled, (m'.gather number chain buffer).2.2 = .ok filled) ∧
      ∀ data, ∃ copied, (m'.scatter number chain data).2 = .ok copied := by
  obtain ⟨_, _, readable, writable, _⟩ := takeChain_handed sound live (Prod.ext rfl taken)
  constructor
  · intro buffer
    have allows := (readable.of_sameMap same).pieces (s := m'.space q') sound' buffer.length
    simp only [gather, live', Queue.gather_eq allows]
    exact ⟨_, rfl⟩
  · intro data
    have allows := (writable.of_sameMap same).pieces (s := m'.space q') sound' data.length
    simp only [scatter, live', Queue.scatter_eq allows]
    exact ⟨_, rfl⟩

end Machine

end VirtioMmio
