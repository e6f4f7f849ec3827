import Mathlib.Data.List.Infix
import Mathlib.Logic.Relation
import VirtioMmio.Proofs.Machine.Requests
import VirtioMmio.Proofs.Queue.Used

/-!
The available ring as a FIFO. A driver publishes heads while a device takes chains and returns them,
in any order and for ever; `Traffic` keeps beside the machine everything that was published and
every answer that was given. Main result: `available_ring_fifo`.

`RingHolds` says what the bytes of the ring mean and `Follows` ties the queue to the lists. Each
kind of step keeps both, and what the next answer will be can be read off them.
-/

namespace VirtioMmio.Queue

open Vring (Chain Layout Part)
open Dma (Space)
open Memory (Store)

theorem prefix_concat {α : Type} {front whole : List α} {next : α} (start : front <+: whole)
    (more : whole[front.length]? = some next) : front ++ [next] <+: whole := by
  obtain ⟨rest, rfl⟩ := start
  rw [List.getElem?_append_right (Nat.le_refl _), Nat.sub_self] at more
  obtain ⟨rest, rfl⟩ : ∃ tail, rest = next :: tail := by
    cases rest with
    | nil => cases more
    | cons first tail => exact ⟨tail, by rw [Option.some.inj more]⟩
  exact ⟨rest, by simp⟩

/-! ### Traffic -/

/-- A machine in use, with what the driver published on one queue and what takers were answered. -/
structure Traffic where
  machine : Machine
  -- A head that is in its slot but not announced yet.
  staged : Option UInt16 := none
  published : List UInt16 := []
  answers : List (Except QueueError (Option Chain)) := []

def heads (answers : List (Except QueueError (Option Chain))) : List UInt16 :=
  answers.filterMap fun
    | .ok (some chain) => some chain.head
    | _ => none

theorem heads_append_none (answers : List (Except QueueError (Option Chain))) :
    heads (answers ++ [.ok none]) = heads answers := by
  simp [heads]

theorem heads_append_some (answers : List (Except QueueError (Option Chain))) (chain : Chain) :
    heads (answers ++ [.ok (some chain)]) = heads answers ++ [chain.head] := by
  simp [heads]

namespace Traffic

def taken (t : Traffic) : List UInt16 :=
  heads t.answers

/-- The chain that is to be taken next, if there is one, is well-formed. -/
def NextWellFormed (q : Virtqueue) (t : Traffic) : Prop :=
  ∀ head, t.published[t.taken.length]? = some head →
    ∃ chain, WellFormedChain q (t.machine.space q) head chain

/-- What can happen around queue `number`, which was brought up as `q` with its available ring at
`base`. Heads are put and announced by separate stores, so anything may come between them. -/
inductive Step (number : Nat) (q : Virtqueue) (base : Nat) : Traffic → Traffic → Prop
  | put (t : Traffic) (head : UInt16)
      (room : t.published.length < t.taken.length + q.layout.size.toNat) :
      Step number q base t
        { t with
          machine.ram.store := t.machine.ram.store.write (slot q.layout base t.published.length)
            (LittleEndian.encode 2 head.toNat)
          staged := some head }
  | announce (t : Traffic) (head : UInt16) (ready : t.staged = some head) :
      Step number q base t
        { t with
          machine.ram.store := t.machine.ram.store.write (base + 2)
            (LittleEndian.encode 2 (UInt16.ofNat (t.published.length + 1)).toNat)
          staged := none
          published := t.published ++ [head] }
  | write (t : Traffic) (store : Store)
      (elsewhere : Spared base (Part.available.bytes q.layout.size) t.machine.ram.store store) :
      Step number q base t { t with machine.ram.store := store }
  | take (t : Traffic) (sound : t.NextWellFormed q) :
      Step number q base t
        { t with
          machine := (t.machine.takeChain number).1
          answers := t.answers ++ [(t.machine.takeChain number).2] }
  | give (t : Traffic) (head : UInt16) (len : UInt32) :
      Step number q base t { t with machine := (t.machine.returnChain number head len).1 }

end Traffic

/-! ### What the ring holds -/

/-- The bytes of an available ring from which `taken` entries were taken. -/
structure RingHolds (l : Layout) (base : Nat) (store : Store) (taken : Nat)
    (staged : Option UInt16) (published : List UInt16) : Prop where
  index : store.word (base + 2) = .ofNat published.length
  slots : ∀ n head, taken ≤ n → published[n]? = some head →
    store.word (slot l base n) = head
  staged : ∀ head, staged = some head → published.length < taken + l.size.toNat ∧
    store.word (slot l base published.length) = head

namespace RingHolds

variable {l : Layout} {base taken : Nat} {store : Store} {staged : Option UInt16}
  {published : List UInt16}

theorem slot_inside (placed : l.Placed) (base n : Nat) :
    ∃ k, slot l base n = base + k ∧ 4 ≤ k ∧ k + 2 ≤ Part.available.bytes l.size := by
  have less : n % l.size.toNat < l.size.toNat := Nat.mod_lt _ placed.size_pos
  refine ⟨4 + 2 * (n % l.size.toNat), ?_, by omega, ?_⟩
  · rw [slot, Nat.add_assoc]
  · simp only [Part.bytes]
    omega

theorem of_spared (holds : RingHolds l base store taken staged published) (placed : l.Placed)
    {after : Store} (spared : Spared base (Part.available.bytes l.size) store after) :
    RingHolds l base after taken staged published := by
  have slots (n : Nat) : after.word (slot l base n) = store.word (slot l base n) := by
    obtain ⟨k, same, _, inside⟩ := slot_inside placed base n
    rw [same]
    exact spared.word inside
  have index : after.word (base + 2) = store.word (base + 2) := by
    apply spared.word
    simp only [Part.bytes]
    omega
  refine ⟨index.trans holds.index, ?_, ?_⟩
  · intro n head later listed
    exact (slots n).trans (holds.slots n head later listed)
  · intro head ready
    obtain ⟨room, stored⟩ := holds.staged head ready
    exact ⟨room, (slots _).trans stored⟩

/-- The slot that a head is put into holds no entry in flight. -/
theorem put (holds : RingHolds l base store taken staged published)
    (room : published.length < taken + l.size.toNat) (head : UInt16) :
    RingHolds l base (store.write (slot l base published.length) (LittleEndian.encode 2 head.toNat))
      taken (some head) published := by
  have two : (LittleEndian.encode 2 head.toNat).length = 2 := LittleEndian.length_encode 2 _
  refine ⟨?_, ?_, ?_⟩
  · rw [Store.word_write_of_apart _ _ _ _ (by simp only [slot]; omega)]
    exact holds.index
  · -- Fewer entries are in flight than there are slots, so another entry has another slot.
    intro n other later listed
    have before : n < published.length := (List.getElem?_eq_some_iff.mp listed).1
    have different := slots_apart before (by omega : published.length < n + l.size.toNat)
    rw [Store.word_write_of_apart _ _ _ _ (by simp only [slot]; omega)]
    exact holds.slots n other later listed
  · intro other same
    cases same
    exact ⟨room, Store.word_write _ _ _⟩

theorem announce {head : UInt16} (holds : RingHolds l base store taken (some head) published) :
    RingHolds l base (store.write (base + 2)
      (LittleEndian.encode 2 (UInt16.ofNat (published.length + 1)).toNat)) taken none
      (published ++ [head]) := by
  have two : (LittleEndian.encode 2 (UInt16.ofNat (published.length + 1)).toNat).length = 2 :=
    LittleEndian.length_encode 2 _
  have kept (n : Nat) : (store.write (base + 2)
      (LittleEndian.encode 2 (UInt16.ofNat (published.length + 1)).toNat)).word (slot l base n) =
      store.word (slot l base n) :=
    Store.word_write_of_apart _ _ _ _ (by simp only [slot]; omega)
  refine ⟨?_, ?_, ?_⟩
  · rw [Store.word_write, List.length_append, List.length_singleton]
  · intro n other later listed
    rw [kept]
    rcases Nat.lt_or_ge n published.length with old | new
    · rw [List.getElem?_append_left old] at listed
      exact holds.slots n other later listed
    · -- The new entry is the staged one; its slot was filled when it was put.
      obtain ⟨short, _⟩ := List.getElem?_eq_some_iff.mp listed
      rw [List.length_append, List.length_singleton] at short
      have last : n = published.length := by omega
      subst last
      rw [List.getElem?_concat_length, Option.some.injEq] at listed
      subst listed
      exact (holds.staged head rfl).2
  · intro other none
    cases none

theorem step (holds : RingHolds l base store taken staged published) :
    RingHolds l base store (taken + 1) staged published := by
  refine ⟨holds.index, ?_, ?_⟩
  · intro n head later listed
    exact holds.slots n head (by omega) listed
  · intro head ready
    obtain ⟨room, stored⟩ := holds.staged head ready
    exact ⟨by omega, stored⟩

end RingHolds

/-! ### What the queue remembers -/

/-- The queue at other positions in its rings. -/
def Virtqueue.moved (q : Virtqueue) (taken returned : UInt16) : Virtqueue :=
  { q with chainsTaken := taken, chainsReturned := returned }

theorem Virtqueue.chainAt_moved (q : Virtqueue) (taken returned : UInt16) (s : Space)
    (head : UInt16) : (q.moved taken returned).chainAt s head = q.chainAt s head := rfl

theorem space_moved (m : Machine) (q : Virtqueue) (taken returned : UInt16) :
    m.space (q.moved taken returned) = m.space q := rfl

theorem Virtqueue.stepAvailable_moved (q : Virtqueue) (n : Nat) (returned : UInt16) :
    (q.moved (.ofNat n) returned).stepAvailable = q.moved (.ofNat (n + 1)) returned := by
  have next : UInt16.ofNat n + 1 = UInt16.ofNat (n + 1) := (UInt16.ofNat_add n 1).symm
  simp only [moved, stepAvailable, next]

/-- A queue that was brought up as `q` with its available ring at `base`, and the traffic on it. -/
structure Follows (number : Nat) (q : Virtqueue) (base : Nat) (t : Traffic) : Prop where
  sound : t.machine.ram.WellFormed
  backed : q.layout.Backed (t.machine.space q)
  starts : Starts q.layout (t.machine.space q) base
  queue : ∃ returned, t.machine.queues[number]? = some (q.moved (.ofNat t.taken.length) returned)
  answered : ∀ answer ∈ t.answers, ∃ found, answer = .ok found
  inOrder : t.taken <+: t.published
  room : t.published.length ≤ t.taken.length + q.layout.size.toNat
  ring : RingHolds q.layout base t.machine.ram.store t.taken.length t.staged t.published

/-- What bringing a queue up establishes about the queue itself. -/
structure Healthy (q : Virtqueue) : Prop where
  placed : q.layout.Placed
  working : q.failed = false
  inUse : q.retired = false

theorem Healthy.liveQueue {q : Virtqueue} (healthy : Healthy q) {m : Machine} {number : Nat}
    {taken returned : UInt16} (found : m.queues[number]? = some (q.moved taken returned)) :
    m.liveQueue number = .ok (q.moved taken returned) := by
  simp only [Machine.liveQueue, found, Virtqueue.moved, healthy.working, healthy.inUse,
    Bool.false_eq_true, if_false]

namespace Follows

variable {number base : Nat} {q : Virtqueue} {t : Traffic}

theorem liveQueue (follows : Follows number q base t) (healthy : Healthy q) :
    ∃ returned, t.machine.liveQueue number = .ok (q.moved (.ofNat t.taken.length) returned) := by
  obtain ⟨returned, found⟩ := follows.queue
  exact ⟨returned, healthy.liveQueue found⟩

/-- Only bytes changed, and those of the ring did not lose their meaning. -/
theorem withStore (follows : Follows number q base t) {store : Store} {staged : Option UInt16}
    {published : List UInt16} (inOrder : t.taken <+: published)
    (room : published.length ≤ t.taken.length + q.layout.size.toNat)
    (ring : RingHolds q.layout base store t.taken.length staged published) :
    Follows number q base { t with machine.ram.store := store, staged, published } where
  sound := follows.sound.of_regions rfl
  backed p := by
    obtain ⟨a, located⟩ := follows.backed p
    exact ⟨a, (Space.locate_congr rfl rfl rfl _ _ _).trans located⟩
  starts := (Space.locate_congr rfl rfl rfl _ _ _).trans follows.starts
  queue := follows.queue
  answered := follows.answered
  inOrder := inOrder
  room := room
  ring := ring

/-- A taker is offered the entry after those that were taken. -/
theorem nextHead (follows : Follows number q base t) (healthy : Healthy q) (returned : UInt16) :
    (q.moved (.ofNat t.taken.length) returned).nextHead (t.machine.space q) =
      .ok t.published[t.taken.length]? := by
  have behind := follows.inOrder.length_le
  have next := nextHead_eq (q := q.moved (.ofNat t.taken.length) returned) healthy.placed
    follows.sound follows.starts rfl follows.ring.index behind follows.room
  rw [next]
  rcases Nat.eq_or_lt_of_le behind with all | more
  · rw [if_pos all, List.getElem?_eq_none (by omega)]
  · have listed := List.getElem?_eq_getElem more
    have stored := follows.ring.slots _ _ (Nat.le_refl _) listed
    rw [if_neg (by omega), listed]
    exact congrArg (Except.ok ∘ some) stored

/-- Once everything was taken there is nothing to take. -/
theorem takeChain_none (follows : Follows number q base t) (healthy : Healthy q)
    (all : t.published[t.taken.length]? = none) :
    t.machine.takeChain number = (t.machine, .ok none) := by
  obtain ⟨returned, live⟩ := follows.liveQueue healthy
  have next := follows.nextHead healthy returned
  rw [all] at next
  simp only [Machine.takeChain, live, space_moved, Virtqueue.nextChain, next]

/-- The next entry is handed over if the chain there is well-formed. -/
theorem takeChain_some (follows : Follows number q base t) (healthy : Healthy q) {head : UInt16}
    (more : t.published[t.taken.length]? = some head) {chain : Chain}
    (sound : WellFormedChain q (t.machine.space q) head chain) :
    t.machine.takeChain number =
      (t.machine.modifyQueue number (·.stepAvailable), .ok (some chain)) := by
  obtain ⟨returned, live⟩ := follows.liveQueue healthy
  have next := follows.nextHead healthy returned
  rw [more] at next
  have walked : q.chainAt (t.machine.space q) head = .ok chain :=
    (q.chainAt_eq_ok_iff healthy.placed follows.sound head chain).mpr sound
  simp only [Machine.takeChain, live, space_moved, Virtqueue.nextChain, next,
    Virtqueue.chainAt_moved, walked]

/-! ### Steps -/

theorem put (follows : Follows number q base t) (head : UInt16)
    (room : t.published.length < t.taken.length + q.layout.size.toNat) :
    Follows number q base
      { t with
        machine.ram.store := t.machine.ram.store.write (slot q.layout base t.published.length)
          (LittleEndian.encode 2 head.toNat)
        staged := some head } :=
  follows.withStore follows.inOrder follows.room (follows.ring.put room head)

theorem announce (follows : Follows number q base t) {head : UInt16}
    (ready : t.staged = some head) :
    Follows number q base
      { t with
        machine.ram.store := t.machine.ram.store.write (base + 2)
          (LittleEndian.encode 2 (UInt16.ofNat (t.published.length + 1)).toNat)
        staged := none
        published := t.published ++ [head] } := by
  obtain ⟨room, _⟩ := follows.ring.staged head ready
  have ring := follows.ring
  rw [ready] at ring
  refine follows.withStore ?_ ?_ ring.announce
  · exact follows.inOrder.trans (List.prefix_append _ _)
  · rw [List.length_append, List.length_singleton]
    omega

theorem write (follows : Follows number q base t) (healthy : Healthy q) {store : Store}
    (elsewhere : Spared base (Part.available.bytes q.layout.size) t.machine.ram.store store) :
    Follows number q base { t with machine.ram.store := store } :=
  follows.withStore follows.inOrder follows.room (follows.ring.of_spared healthy.placed elsewhere)

theorem take (follows : Follows number q base t) (healthy : Healthy q)
    (sound : t.NextWellFormed q) :
    Follows number q base
      { t with
        machine := (t.machine.takeChain number).1
        answers := t.answers ++ [(t.machine.takeChain number).2] } := by
  have answered (found : Option Chain) :
      ∀ answer ∈ t.answers ++ [.ok found], ∃ found, answer = .ok found := by
    intro answer member
    rcases List.mem_append.mp member with old | new
    · exact follows.answered answer old
    · exact ⟨found, List.mem_singleton.mp new⟩
  cases more : t.published[t.taken.length]? with
  | none =>
    -- Nothing is offered: one more answer, and no more heads.
    rw [follows.takeChain_none healthy more]
    have same : heads (t.answers ++ [.ok none]) = t.taken := heads_append_none _
    refine ⟨follows.sound, follows.backed, follows.starts, ?_, answered none, ?_, ?_, ?_⟩ <;>
      simp only [Traffic.taken, same]
    · exact follows.queue
    · exact follows.inOrder
    · exact follows.room
    · exact follows.ring
  | some head =>
    -- The next head is handed over, and the queue moves on by one.
    obtain ⟨chain, wellFormed⟩ := sound head more
    rw [follows.takeChain_some healthy more wellFormed]
    have longer : heads (t.answers ++ [.ok (some chain)]) = t.taken ++ [head] := by
      rw [heads_append_some, wellFormed.starts]
      rfl
    have count : (heads (t.answers ++ [.ok (some chain)])).length = t.taken.length + 1 := by
      rw [longer, List.length_append, List.length_singleton]
    refine ⟨follows.sound, follows.backed, follows.starts, ?_, answered (some chain), ?_, ?_,
      ?_⟩ <;>
      simp only [Traffic.taken, count]
    · obtain ⟨returned, found⟩ := follows.queue
      have stepped := Machine.queue_modifyQueue found (·.stepAvailable)
      rw [q.stepAvailable_moved] at stepped
      exact ⟨returned, stepped⟩
    · rw [longer]
      exact prefix_concat follows.inOrder more
    · have wider :
          t.taken.length + q.layout.size.toNat ≤ t.taken.length + 1 + q.layout.size.toNat := by
        omega
      exact Nat.le_trans follows.room wider
    · exact follows.ring.step

/-- Returning a chain answers on the used ring, or refuses a head that no table has. -/
theorem give (follows : Follows number q base t) (healthy : Healthy q) (head : UInt16)
    (len : UInt32) :
    Follows number q base { t with machine := (t.machine.returnChain number head len).1 } := by
  obtain ⟨returned, live⟩ := follows.liveQueue healthy
  simp only [Machine.returnChain]
  rw [live]
  dsimp only
  split
  · exact follows
  next known =>
    obtain ⟨used, located⟩ := follows.backed .used
    have position : (q.moved (.ofNat t.taken.length) returned).chainsReturned =
        .ofNat returned.toNat :=
      UInt16.ofNat_toNat.symm
    have put := putUsed_eq (q := q.moved (.ofNat t.taken.length) returned) healthy.placed
      follows.sound located position head len
    have spared := spared_putUsed (q := q) healthy.placed t.machine.ram.store returned.toNat head
      len (Space.locate_apart follows.starts located
        (healthy.placed.apart .available .used (by decide)))
    rw [space_moved, put]
    dsimp only
    -- For the ring this is a write elsewhere; only the other position of the queue moves.
    have written := follows.write healthy spared
    refine ⟨written.sound, written.backed, written.starts, ?_, written.answered, written.inOrder,
      written.room, written.ring⟩
    obtain ⟨returned, found⟩ := written.queue
    exact ⟨returned + 1, Machine.queue_modifyQueue found _⟩

end Follows

namespace Follows

theorem step {number base : Nat} {q : Virtqueue} {t t' : Traffic}
    (follows : Follows number q base t) (healthy : Healthy q) (step : t.Step number q base t') :
    Follows number q base t' := by
  cases step with
  | put head room => exact follows.put head room
  | announce head ready => exact follows.announce ready
  | write store elsewhere => exact follows.write healthy elsewhere
  | take sound => exact follows.take healthy sound
  | give head len => exact follows.give healthy head len

theorem run {number base : Nat} {q : Virtqueue} {t t' : Traffic}
    (follows : Follows number q base t) (healthy : Healthy q)
    (steps : Relation.ReflTransGen (Traffic.Step number q base) t t') :
    Follows number q base t' := by
  induction steps with
  | refl => exact follows
  | tail _ last ih => exact ih.step healthy last

end Follows

end VirtioMmio.Queue

namespace VirtioMmio

open Queue
open Vring (Layout Part)

namespace Machine

/-- What bringing a queue up says about the virtqueue that appears. -/
theorem fresh_of_bringUp {m m' : Machine} {r r' : Registers} {index max : UInt16} {indirect : Bool}
    (down : r.isUp = false) (done : m.bringUp r index max indirect = .ok (r', m'))
    {q : Virtqueue} (fresh : m'.liveQueue m.queues.length = .ok q) :
    Healthy q ∧ m'.queues[m.queues.length]? = some (q.moved 0 0) ∧ m'.ram = m.ram ∧
      q.layout.Backed (m'.space q) := by
  obtain ⟨layout, accepted, backed, _, rfl⟩ := bringUp_eq_ok down done
  have placed := Layout.placed_of_new accepted backed
  have found : (m.queues ++ [({ index, layout, indirect } : Virtqueue)])[m.queues.length]? =
      some { index, layout, indirect } := List.getElem?_concat_length
  simp only [liveQueue, found, Bool.false_eq_true, if_false, Except.ok.injEq] at fresh
  subst fresh
  exact ⟨⟨placed, rfl, rfl⟩, found, rfl, backed⟩

theorem follows_of_bringUp {m m' : Machine} {r r' : Registers} {index max : UInt16}
    {indirect : Bool} (sound : m.ram.WellFormed) (down : r.isUp = false)
    (done : m.bringUp r index max indirect = .ok (r', m')) {q : Virtqueue}
    (fresh : m'.liveQueue m.queues.length = .ok q) {base : Nat}
    (starts : Starts q.layout (m'.space q) base)
    (zero : (m'.space q).read16 q.availIndexAddr = .ok 0) :
    Healthy q ∧ Follows m.queues.length q base ⟨m', none, [], []⟩ := by
  obtain ⟨healthy, found, same, backed⟩ := fresh_of_bringUp down done fresh
  rw [← same] at sound
  have index : m'.ram.store.word (base + 2) = 0 := by
    have read := read16_available sound starts (toNat_availIndexAddr healthy.placed)
      (by simp only [Part.bytes]; omega)
    exact Except.ok.inj (read.symm.trans zero)
  refine ⟨healthy, ?_⟩
  constructor
  · exact sound
  · exact backed
  · exact starts
  · exact ⟨0, found⟩
  · intro answer none
    cases none
  · exact List.prefix_rfl
  · exact Nat.zero_le _
  · refine ⟨index, ?_, ?_⟩
    · intro n head _ none
      cases none
    · intro head none
      cases none

/-- Whatever happens around a fresh queue, chains are handed over in the order in which their heads
were published, none is lost or repeated, and taking one never fails. -/
theorem available_ring_fifo {m m' : Machine} {r r' : Registers} {index max : UInt16}
    {indirect : Bool} (sound : m.ram.WellFormed) (down : r.isUp = false)
    (done : m.bringUp r index max indirect = .ok (r', m')) {q : Virtqueue}
    (fresh : m'.liveQueue m.queues.length = .ok q) {base : Nat}
    (starts : Starts q.layout (m'.space q) base)
    (zero : (m'.space q).read16 q.availIndexAddr = .ok 0) {t : Traffic}
    (run : Relation.ReflTransGen (Traffic.Step m.queues.length q base) ⟨m', none, [], []⟩ t) :
    (∀ answer ∈ t.answers, ∃ found, answer = .ok found) ∧ t.taken <+: t.published ∧
      (t.NextWellFormed q →
        ((t.machine.takeChain m.queues.length).2 = .ok none ↔ t.taken = t.published) ∧
        ∀ head : UInt16, t.published[t.taken.length]? = some head →
          ∃ chain, (t.machine.takeChain m.queues.length).2 = .ok (some chain) ∧
            chain.head = head) := by
  -- `Follows` holds of the fresh queue, and every step of the traffic keeps it.
  obtain ⟨healthy, start⟩ := follows_of_bringUp sound down done fresh starts zero
  have follows := start.run healthy run
  refine ⟨follows.answered, follows.inOrder, ?_⟩
  intro wellFormed
  have offered (head : UInt16) (more : t.published[t.taken.length]? = some head) :
      ∃ chain, (t.machine.takeChain m.queues.length).2 = .ok (some chain) ∧ chain.head = head := by
    obtain ⟨chain, good⟩ := wellFormed head more
    exact ⟨chain, congrArg Prod.snd (follows.takeChain_some healthy more good), good.starts⟩
  refine ⟨?_, offered⟩
  cases more : t.published[t.taken.length]? with
  | none =>
    have answer := congrArg Prod.snd (follows.takeChain_none healthy more)
    have all := follows.inOrder.eq_of_length_le (List.getElem?_eq_none_iff.mp more)
    exact iff_of_true answer all
  | some head =>
    obtain ⟨chain, answer, _⟩ := offered head more
    have notAll : t.taken ≠ t.published := by
      intro all
      rw [all, List.getElem?_eq_none (Nat.le_refl _)] at more
      cases more
    rw [answer]
    simp [notAll]

/-! The sample machine before anything is published, after entry 1 was published, and after the
chain there was taken. -/

def quietMachine : Machine :=
  { sampleMachine with ram.store := sampleRam.store.write 0x1102 [0, 0] }

def announcedTraffic : Traffic where
  machine := { quietMachine with
    ram.store := (quietMachine.ram.store.write 0x1104 [1, 0]).write 0x1102 [1, 0] }
  published := [1]

def takenTraffic : Traffic :=
  { announcedTraffic with
    machine := (announcedTraffic.machine.takeChain 0).1
    answers := [(announcedTraffic.machine.takeChain 0).2] }

theorem announcedTraffic_nextWellFormed : announcedTraffic.NextWellFormed sampleQueue := by
  intro head more
  have first : head = 1 := (Option.some.inj more).symm
  subst first
  have found : sampleQueue.chainAt (announcedTraffic.machine.space sampleQueue) 1 =
      .ok sampleChain := by
    decide +kernel
  have sound : announcedTraffic.machine.ram.WellFormed := wellFormed_sampleRam.of_regions rfl
  exact ⟨sampleChain,
    (sampleQueue.chainAt_eq_ok_iff broughtUp_sampleQueue.placed sound 1 _).mp found⟩

theorem takenTraffic_in_order :
    takenTraffic.answers = [.ok (some sampleChain)] ∧
      takenTraffic.taken <+: takenTraffic.published ∧
      (takenTraffic.machine.takeChain 0).2 = .ok none := by
  have answers : takenTraffic.answers = [.ok (some sampleChain)] := by decide +kernel
  have all : takenTraffic.taken = takenTraffic.published := by decide +kernel
  have none : takenTraffic.NextWellFormed sampleQueue := by
    intro head more
    rw [all, List.getElem?_eq_none (Nat.le_refl _)] at more
    cases more
  have run : Relation.ReflTransGen (Traffic.Step 0 sampleQueue 0x1100) ⟨quietMachine, .none, [], []⟩
      takenTraffic := by
    refine ((Relation.ReflTransGen.refl.tail (.put _ 1 ?_)).tail (.announce _ 1 rfl)).tail
      (.take announcedTraffic announcedTraffic_nextWellFormed)
    decide
  have sound : ({ quietMachine with queues := [] } : Machine).ram.WellFormed :=
    wellFormed_sampleRam.of_regions rfl
  have done : bringUp { quietMachine with queues := [] }
      { size := 4, desc := 0x1000, driver := 0x1100, device := 0x1200 } 0 256 true =
        .ok ({ size := 4, desc := 0x1000, driver := 0x1100, device := 0x1200, live := .some 0 },
          quietMachine) := rfl
  have fresh : quietMachine.liveQueue 0 = .ok sampleQueue := rfl
  have starts : Starts sampleQueue.layout (quietMachine.space sampleQueue) 0x1100 := rfl
  have zero : (quietMachine.space sampleQueue).read16 sampleQueue.availIndexAddr = .ok 0 := by
    decide +kernel
  have outcome := available_ring_fifo sound rfl done fresh starts zero run
  exact ⟨answers, outcome.2.1, (outcome.2.2 none).1.mpr all⟩

end Machine

end VirtioMmio
