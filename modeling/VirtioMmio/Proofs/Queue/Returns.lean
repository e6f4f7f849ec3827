import VirtioMmio.Proofs.Queue.Traffic

/-!
The used ring as a log. A device returns chains while a driver reads the entries; `Returns` keeps
beside the machine everything that was returned and everything that was read. Main result:
`used_ring_log`.

Two things are kept apart. `Ready` holds whatever is written into memory: it says where the next
entry goes and what the index becomes, as a function of how many chains were returned. `Logs` is
about the contents of the ring, and needs a driver that keeps up and a ring that is left alone.
-/

namespace VirtioMmio.Queue

open Vring (Chain Layout Part)
open Dma (Space)
open Memory (Store)

/-! ### Returned and read -/

/-- A machine in use, with the entries that were returned on one queue and those a driver read. -/
structure Returns where
  machine : Machine
  returned : List (UInt32 × UInt32) := []
  seen : List (UInt32 × UInt32) := []

namespace Returns

/-- What can happen around queue `number`, which was brought up as `q` with its used ring at `base`.
If this is `orderly`, a chain is returned only while some slot holds no unread entry, and nobody but
the queue writes its index and its entries. -/
inductive Step (orderly : Prop) (number : Nat) (q : Virtqueue) (base : Nat) :
    Returns → Returns → Prop
  | give (t : Returns) (head : UInt16) (len : UInt32) (inside : head < q.layout.size)
      (room : orderly → t.returned.length < t.seen.length + q.layout.size.toNat) :
      Step orderly number q base t
        { t with
          machine := (t.machine.returnChain number head len).1
          returned := t.returned ++ [(head.toUInt32, len)] }
  | read (t : Returns) :
      Step orderly number q base t
        { t with
          seen := t.seen ++
            (nextUsed q.layout base t.machine.ram.store t.seen.length).toList }
  | write (t : Returns) (store : Store)
      (elsewhere : orderly → UsedSpared q.layout base t.machine.ram.store store) :
      Step orderly number q base t { t with machine.ram.store := store }
  | take (t : Returns) (found : Option Chain) (took : (t.machine.takeChain number).2 = .ok found) :
      Step orderly number q base t { t with machine := (t.machine.takeChain number).1 }
  | ask (t : Returns) (wanted : Bool) :
      Step orderly number q base t
        { t with machine := (t.machine.askNotifications number wanted).1 }

end Returns

/-- Returning a chain works and takes two stores. Guest RAM holds `filled` between them and
`counted` after them. -/
def Pushes (m : Machine) (number : Nat) (head : UInt16) (len : UInt32) (filled counted : Store) :
    Prop :=
  ∃ q, m.liveQueue number = .ok q ∧
    q.storeUsed (m.space q) head len = .ok { m.ram with store := filled } ∧
    q.publishUsed { m.space q with ram := { m.ram with store := filled } } =
      .ok { m.ram with store := counted } ∧
    m.returnChain number head len =
      ({ m with ram.store := counted }.modifyQueue number (·.stepUsed), .ok ())

/-! ### Whatever is in memory -/

/-- A queue that was brought up as `q` with its used ring at `base`, and that remembers how many
chains were returned. -/
structure Ready (number : Nat) (q : Virtqueue) (base : Nat) (t : Returns) : Prop where
  sound : t.machine.ram.WellFormed
  starts : UsedStarts q.layout (t.machine.space q) base
  queue : ∃ taken, t.machine.queues[number]? = some (q.moved taken (.ofNat t.returned.length))

theorem Virtqueue.stepUsed_moved (q : Virtqueue) (taken : UInt16) (n : Nat) :
    (q.moved taken (.ofNat n)).stepUsed = q.moved taken (.ofNat (n + 1)) := by
  have next : UInt16.ofNat n + 1 = UInt16.ofNat (n + 1) := (UInt16.ofNat_add n 1).symm
  simp only [moved, stepUsed, next]

/-- Taking a chain, when that works, moves the queue on by one entry at most. -/
theorem takeChain_ok {m : Machine} {number : Nat} {found : Option Chain}
    (took : (m.takeChain number).2 = .ok found) :
    (m.takeChain number).1 = m ∨
      (m.takeChain number).1 = m.modifyQueue number (·.stepAvailable) := by
  simp only [Machine.takeChain] at took ⊢
  split at took
  · cases took
  next q live =>
    split at took
    · cases took
    · exact .inl rfl
    · exact .inr rfl

namespace Ready

variable {number base : Nat} {q : Virtqueue} {t : Returns}

theorem liveQueue (ready : Ready number q base t) (healthy : Healthy q) :
    ∃ taken, t.machine.liveQueue number = .ok (q.moved taken (.ofNat t.returned.length)) := by
  obtain ⟨taken, found⟩ := ready.queue
  exact ⟨taken, healthy.liveQueue found⟩

/-- The slot and the index of a push, from the number of pushes before. -/
theorem pushes (ready : Ready number q base t) (healthy : Healthy q) {head : UInt16}
    (inside : head < q.layout.size) (len : UInt32) :
    Pushes t.machine number head len
      (fillUsed q.layout base t.machine.ram.store t.returned.length head len)
      (countUsed base (fillUsed q.layout base t.machine.ram.store t.returned.length head len)
        (t.returned.length + 1)) := by
  obtain ⟨taken, live⟩ := ready.liveQueue healthy
  have put := putUsed_eq (q := q.moved taken (.ofNat t.returned.length)) healthy.placed ready.sound
    ready.starts rfl head len
  refine ⟨_, live, ?_, ?_, ?_⟩
  · exact storeUsed_eq (q := q.moved taken _) healthy.placed ready.sound ready.starts rfl head len
  · exact publishUsed_eq (q := q.moved taken _) healthy.placed (ready.sound.of_regions rfl)
      (ready.starts.withStore _) rfl
  · have known : ¬ (q.moved taken (.ofNat t.returned.length)).layout.size ≤ head :=
      UInt16.not_le.mpr inside
    simp only [Machine.returnChain, live]
    rw [if_neg known, space_moved, put]
    rfl

theorem write (ready : Ready number q base t) (store : Store) :
    Ready number q base { t with machine.ram.store := store } where
  sound := ready.sound.of_regions rfl
  starts := ready.starts.withStore store
  queue := ready.queue

theorem give (ready : Ready number q base t) (healthy : Healthy q) {head : UInt16}
    (inside : head < q.layout.size) (len : UInt32) :
    Ready number q base
      { t with
        machine := (t.machine.returnChain number head len).1
        returned := t.returned ++ [(head.toUInt32, len)] } := by
  obtain ⟨_, _, _, _, done⟩ := ready.pushes healthy inside len
  have longer : (t.returned ++ [(head.toUInt32, len)]).length = t.returned.length + 1 := by
    rw [List.length_append, List.length_singleton]
  -- The queue is found where it was before anything was stored, and moves on by one.
  have written := ready.write (countUsed base
    (fillUsed q.layout base t.machine.ram.store t.returned.length head len) (t.returned.length + 1))
  obtain ⟨taken, found⟩ := written.queue
  have stepped := Machine.queue_modifyQueue found (·.stepUsed)
  rw [q.stepUsed_moved] at stepped
  rw [done]
  refine ⟨written.sound, written.starts, taken, ?_⟩
  simp only [longer]
  exact stepped

theorem take (ready : Ready number q base t) {found : Option Chain}
    (took : (t.machine.takeChain number).2 = .ok found) :
    Ready number q base { t with machine := (t.machine.takeChain number).1 } := by
  rcases takeChain_ok took with same | stepped
  · rw [same]
    exact ready
  · rw [stepped]
    obtain ⟨taken, found⟩ := ready.queue
    exact ⟨ready.sound, ready.starts, taken + 1, Machine.queue_modifyQueue found (·.stepAvailable)⟩

/-- The wish for notifications goes into the first two bytes of the ring. -/
theorem askNotifications_eq (ready : Ready number q base t) (healthy : Healthy q) (wanted : Bool) :
    ∃ flags : UInt16, (t.machine.askNotifications number wanted).1 =
      { t.machine with
        ram.store := t.machine.ram.store.write base (LittleEndian.encode 2 flags.toNat) } := by
  obtain ⟨taken, live⟩ := ready.liveQueue healthy
  have located := locate_used (k := 0) (m := 2) ready.sound ready.starts rfl
    (by simp only [Part.bytes]; omega) (by decide)
  refine ⟨if wanted then 0 else Virtqueue.noNotifyFlag, ?_⟩
  simp only [Machine.askNotifications, live, Virtqueue.putWish, space_moved, Space.write16_eq]
  rw [show (q.moved taken (.ofNat t.returned.length)).layout = q.layout from rfl, located]
  rfl

theorem step {orderly : Prop} {t' : Returns} (ready : Ready number q base t) (healthy : Healthy q)
    (step : t.Step orderly number q base t') : Ready number q base t' := by
  cases step with
  | give head len inside room => exact ready.give healthy inside len
  | read => exact ⟨ready.sound, ready.starts, ready.queue⟩
  | write store elsewhere => exact ready.write store
  | take found took => exact ready.take took
  | ask wanted =>
    obtain ⟨flags, same⟩ := ready.askNotifications_eq healthy wanted
    rw [same]
    exact ready.write _

theorem run {orderly : Prop} {t' : Returns} (ready : Ready number q base t) (healthy : Healthy q)
    (steps : Relation.ReflTransGen (Returns.Step orderly number q base) t t') :
    Ready number q base t' := by
  induction steps with
  | refl => exact ready
  | tail _ last ih => exact ih.step healthy last

end Ready

/-! ### While the ring is left alone -/

/-- The ring shows every entry that was not read yet, and what was read is the front of what was
returned. -/
structure Logs (q : Virtqueue) (base : Nat) (t : Returns) : Prop where
  inOrder : t.seen <+: t.returned
  room : t.returned.length ≤ t.seen.length + q.layout.size.toNat
  ring : UsedHolds q.layout base t.machine.ram.store t.seen.length t.returned

namespace Logs

variable {number base : Nat} {q : Virtqueue} {t : Returns}

theorem nextUsed_eq (logs : Logs q base t) :
    nextUsed q.layout base t.machine.ram.store t.seen.length = t.returned[t.seen.length]? :=
  logs.ring.nextUsed_eq logs.inOrder.length_le logs.room

theorem write (logs : Logs q base t) (healthy : Healthy q) {store : Store}
    (elsewhere : UsedSpared q.layout base t.machine.ram.store store) :
    Logs q base { t with machine.ram.store := store } :=
  ⟨logs.inOrder, logs.room, logs.ring.of_spared healthy.placed elsewhere⟩

/-- What a push makes of the ring: nothing new between its two stores, and one more entry after
them. -/
theorem push (logs : Logs q base t) (room : t.returned.length < t.seen.length +
    q.layout.size.toNat) (head : UInt16) (len : UInt32) :
    UsedHolds q.layout base
        (fillUsed q.layout base t.machine.ram.store t.returned.length head len) t.seen.length
        t.returned ∧
      UsedHolds q.layout base
        (countUsed base (fillUsed q.layout base t.machine.ram.store t.returned.length head len)
          (t.returned.length + 1)) t.seen.length (t.returned ++ [(head.toUInt32, len)]) := by
  have between := logs.ring.fill room head len
  exact ⟨between, between.count (usedEntry_write _ _ head len)⟩

theorem give (logs : Logs q base t) (ready : Ready number q base t) (healthy : Healthy q)
    {head : UInt16} (inside : head < q.layout.size) (len : UInt32)
    (room : t.returned.length < t.seen.length + q.layout.size.toNat) :
    Logs q base
      { t with
        machine := (t.machine.returnChain number head len).1
        returned := t.returned ++ [(head.toUInt32, len)] } := by
  obtain ⟨_, _, _, _, done⟩ := ready.pushes healthy inside len
  have longer : (t.returned ++ [(head.toUInt32, len)]).length ≤
      t.seen.length + q.layout.size.toNat := by
    rw [List.length_append, List.length_singleton]
    omega
  rw [done]
  exact ⟨logs.inOrder.trans (List.prefix_append _ _), longer, (logs.push room head len).2⟩

theorem read (logs : Logs q base t) :
    Logs q base
      { t with
        seen := t.seen ++
          (nextUsed q.layout base t.machine.ram.store t.seen.length).toList } := by
  rw [logs.nextUsed_eq]
  cases more : t.returned[t.seen.length]? with
  | none =>
    -- Everything was read already, and the index says so.
    rw [Option.toList_none, List.append_nil]
    exact logs
  | some entry =>
    have longer : (t.seen ++ [entry]).length = t.seen.length + 1 := by
      rw [List.length_append, List.length_singleton]
    have room := logs.room
    rw [Option.toList_some]
    refine ⟨prefix_concat logs.inOrder more, ?_, ?_⟩ <;> simp only [longer]
    · omega
    · exact logs.ring.step

theorem take (logs : Logs q base t) {found : Option Chain}
    (took : (t.machine.takeChain number).2 = .ok found) :
    Logs q base { t with machine := (t.machine.takeChain number).1 } := by
  rcases takeChain_ok took with same | stepped
  · rw [same]
    exact logs
  · rw [stepped]
    exact ⟨logs.inOrder, logs.room, logs.ring⟩

theorem ask (logs : Logs q base t) (ready : Ready number q base t) (healthy : Healthy q)
    (wanted : Bool) :
    Logs q base { t with machine := (t.machine.askNotifications number wanted).1 } := by
  obtain ⟨flags, same⟩ := ready.askNotifications_eq healthy wanted
  rw [same]
  have two : (LittleEndian.encode 2 flags.toNat).length = 2 := LittleEndian.length_encode 2 _
  exact logs.write healthy (spared_write _ (by omega))

theorem step {orderly : Prop} {t' : Returns} (logs : Logs q base t) (given : orderly)
    (ready : Ready number q base t) (healthy : Healthy q)
    (step : t.Step orderly number q base t') : Logs q base t' := by
  cases step with
  | give head len inside room => exact logs.give ready healthy inside len (room given)
  | read => exact logs.read
  | write store elsewhere => exact logs.write healthy (elsewhere given)
  | take found took => exact logs.take took
  | ask wanted => exact logs.ask ready healthy wanted

theorem run {orderly : Prop} {t' : Returns} (logs : Logs q base t) (given : orderly)
    (ready : Ready number q base t) (healthy : Healthy q)
    (steps : Relation.ReflTransGen (Returns.Step orderly number q base) t t') :
    Logs q base t' := by
  induction steps with
  | refl => exact logs
  | tail before last ih => exact ih.step given (ready.run healthy before) healthy last

end Logs

end VirtioMmio.Queue

namespace VirtioMmio.Machine

open Queue
open Vring (Layout)

theorem ready_of_bringUp {m m' : Machine} {r r' : Registers} {index max : UInt16} {indirect : Bool}
    (sound : m.ram.WellFormed) (down : r.isUp = false)
    (done : m.bringUp r index max indirect = .ok (r', m')) {q : Virtqueue}
    (fresh : m'.liveQueue m.queues.length = .ok q) {base : Nat}
    (starts : UsedStarts q.layout (m'.space q) base) :
    Healthy q ∧ Ready m.queues.length q base ⟨m', [], []⟩ := by
  obtain ⟨healthy, found, same, _⟩ := fresh_of_bringUp down done fresh
  rw [← same] at sound
  exact ⟨healthy, sound, starts, 0, found⟩

/-- On a fresh queue every push works. Its slot and its index follow from the number of pushes
before, whatever anyone wrote into the ring. If the index starts at zero, the driver keeps up and
the ring is left alone, then the driver reads exactly what was pushed, in order and for ever;
between the two stores of a push the ring shows what it showed before. -/
theorem used_ring_log {m m' : Machine} {r r' : Registers} {index max : UInt16} {indirect : Bool}
    (sound : m.ram.WellFormed) (down : r.isUp = false)
    (done : m.bringUp r index max indirect = .ok (r', m')) {q : Virtqueue}
    (fresh : m'.liveQueue m.queues.length = .ok q) {base : Nat}
    (starts : UsedStarts q.layout (m'.space q) base) :
    (∀ (orderly : Prop) (t : Returns),
      Relation.ReflTransGen (Returns.Step orderly m.queues.length q base) ⟨m', [], []⟩ t →
      ∀ (head : UInt16) (len : UInt32), head < q.layout.size →
        Pushes t.machine m.queues.length head len
          (fillUsed q.layout base t.machine.ram.store t.returned.length head len)
          (countUsed base (fillUsed q.layout base t.machine.ram.store t.returned.length head len)
            (t.returned.length + 1))) ∧
    (m'.ram.store.word (base + 2) = 0 → ∀ t : Returns,
      Relation.ReflTransGen (Returns.Step True m.queues.length q base) ⟨m', [], []⟩ t →
        t.seen <+: t.returned ∧
        nextUsed q.layout base t.machine.ram.store t.seen.length = t.returned[t.seen.length]? ∧
        (t.returned.length < t.seen.length + q.layout.size.toNat →
          ∀ (head : UInt16) (len : UInt32),
            UsedHolds q.layout base
              (fillUsed q.layout base t.machine.ram.store t.returned.length head len)
              t.seen.length t.returned ∧
            UsedHolds q.layout base
              (countUsed base
                (fillUsed q.layout base t.machine.ram.store t.returned.length head len)
                (t.returned.length + 1))
              t.seen.length (t.returned ++ [(head.toUInt32, len)]))) := by
  obtain ⟨healthy, ready⟩ := ready_of_bringUp sound down done fresh starts
  refine ⟨?_, ?_⟩
  · intro orderly t run head len inside
    exact (ready.run healthy run).pushes healthy inside len
  · intro zero t run
    -- Nothing was returned or read yet, and the index is at zero.
    have start : Logs q base ⟨m', [], []⟩ := by
      refine ⟨List.prefix_rfl, Nat.zero_le _, zero, ?_⟩
      intro n entry _ listed
      cases listed
    have logs := start.run trivial ready healthy run
    exact ⟨logs.inOrder, logs.nextUsed_eq, logs.push⟩

/-- The sample machine after the driver read the one chain that was returned. -/
def sampleReturns : Returns where
  machine := (quietMachine.returnChain 0 1 8).1
  returned := [(1, 8)]
  seen := (nextUsed sampleQueue.layout 0x1200 (quietMachine.returnChain 0 1 8).1.ram.store 0).toList

theorem sampleReturns_logged :
    sampleReturns.seen = [(1, 8)] ∧ sampleReturns.seen <+: sampleReturns.returned ∧
      nextUsed sampleQueue.layout 0x1200 sampleReturns.machine.ram.store 1 = none ∧
      (sampleReturns.machine.returnChain 0 2 0).2 = .ok () := by
  have read : sampleReturns.seen = [(1, 8)] := by decide +kernel
  have run : Relation.ReflTransGen (Returns.Step True 0 sampleQueue 0x1200) ⟨quietMachine, [], []⟩
      sampleReturns := by
    have given : Relation.ReflTransGen (Returns.Step True 0 sampleQueue 0x1200)
        ⟨quietMachine, [], []⟩ ⟨(quietMachine.returnChain 0 1 8).1, [(1, 8)], []⟩ :=
      .tail .refl (.give _ 1 8 (by decide) fun _ => by decide)
    exact given.tail (.read _)
  have sound : ({ quietMachine with queues := [] } : Machine).ram.WellFormed :=
    wellFormed_sampleRam.of_regions rfl
  have done : bringUp { quietMachine with queues := [] }
      { size := 4, desc := 0x1000, driver := 0x1100, device := 0x1200 } 0 256 true =
        .ok ({ size := 4, desc := 0x1000, driver := 0x1100, device := 0x1200, live := .some 0 },
          quietMachine) := rfl
  have fresh : quietMachine.liveQueue 0 = .ok sampleQueue := rfl
  have starts : UsedStarts sampleQueue.layout (quietMachine.space sampleQueue) 0x1200 := rfl
  have zero : quietMachine.ram.store.word (0x1200 + 2) = 0 := by decide +kernel
  obtain ⟨pushed, logged⟩ := used_ring_log sound rfl done fresh starts
  obtain ⟨inOrder, next, _⟩ := logged zero sampleReturns run
  obtain ⟨_, _, _, _, worked⟩ := pushed True sampleReturns run 2 0 (by decide)
  rw [read] at next
  exact ⟨read, inOrder, next, congrArg Prod.snd worked⟩

end VirtioMmio.Machine
