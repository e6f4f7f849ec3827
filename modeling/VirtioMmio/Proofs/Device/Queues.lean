import VirtioMmio.Proofs.Device.Negotiation

/-!
Queues, between the registers that the driver programs and the virtqueues that the backend works on.
A queue is brought up from what its registers hold at that moment; `Matched` says that the two agree
from then on, because registers that are up take no writes any more. Main result: `queues_stand`.
-/

namespace VirtioMmio

open Backend (Session)
open Queue (Registers Virtqueue)
open Transport (Register RegisterFile)
open Vring (Layout)

/-! ### Virtqueues as they were brought up -/

theorem getElem?_of_prefix {α : Type} {list list' : List α} (grown : list <+: list') {i : Nat}
    {x : α} (found : list[i]? = some x) : list'[i]? = some x := by
  obtain ⟨known, rfl⟩ := List.getElem?_eq_some_iff.mp found
  exact List.prefix_iff_getElem?.mp grown i known

/-- A virtqueue as it was when the driver brought it up. -/
def Queue.Virtqueue.asBroughtUp (q : Virtqueue) : Virtqueue :=
  { index := q.index, layout := q.layout, indirect := q.indirect }

namespace Machine

/-- Every virtqueue as it was when the driver brought it up. -/
def broughtUp (m : Machine) : List Virtqueue :=
  m.queues.map Virtqueue.asBroughtUp

theorem broughtUp_of_lasting {m m' : Machine} (same : m'.lasting = m.lasting) :
    m'.broughtUp = m.broughtUp := by
  have each (m : Machine) : m.broughtUp = m.lasting.map Virtqueue.asBroughtUp := by
    rw [broughtUp, lasting, List.map_map]
    rfl
  rw [each, each, same]

theorem broughtUp_foldl_retireLive (m : Machine) (queues : List Registers) :
    (queues.foldl retireLive m).broughtUp = m.broughtUp := by
  induction queues generalizing m with
  | nil => rfl
  | cons r queues ih =>
    rw [List.foldl_cons, ih]
    simp only [retireLive]
    split
    · rfl
    next number _ =>
      have blind (q : Virtqueue) : ({ q with retired := true } : Virtqueue).asBroughtUp =
          q.asBroughtUp := rfl
      exact map_modify blind m.queues number

theorem getElem?_broughtUp {m : Machine} {number : Nat} {q : Virtqueue}
    (found : m.queues[number]? = some q) : m.broughtUp[number]? = some q.asBroughtUp := by
  rw [broughtUp, List.getElem?_map, found]
  rfl

theorem virtqueue_of_prefix {m m' : Machine} (grown : m.broughtUp <+: m'.broughtUp) {number : Nat}
    {q : Virtqueue} (found : m.queues[number]? = some q) :
    ∃ q', m'.queues[number]? = some q' ∧ q'.asBroughtUp = q.asBroughtUp := by
  have brought := getElem?_of_prefix grown (getElem?_broughtUp found)
  rw [broughtUp, List.getElem?_map] at brought
  exact Option.map_eq_some_iff.mp brought

end Machine

namespace Device

/-- The features agreed on so far allow indirect tables. -/
def mayUseTables (d : Device) : Bool :=
  d.registers.config.negotiated &&& indirectFeature != 0

/-! ### The ready register -/

theorem withQueue_withQueue (d : Device) (index : UInt16) (r r' : Registers) :
    (d.withQueue index r).withQueue index r' = d.withQueue index r' := by
  simp only [withQueue, List.set_set]

theorem withQueue_self {d : Device} {index : UInt16} {r : Registers}
    (found : d.registers.queues[index.toNat]? = some r) : d.withQueue index r = d := by
  obtain ⟨known, rfl⟩ := List.getElem?_eq_some_iff.mp found
  simp only [withQueue, List.set_getElem_self]

theorem getElem?_withQueue_self {d : Device} {index : UInt16} {r : Registers}
    (found : d.registers.queues[index.toNat]? = some r) (r' : Registers) :
    (d.withQueue index r').registers.queues[index.toNat]? = some r' :=
  List.getElem?_set_self (List.getElem?_eq_some_iff.mp found).1

theorem modifySelected_eq_withQueue {d : Device} {r : Registers}
    (found : d.registers.selected? = some r) (f : Registers → Registers) :
    ({ d with registers := d.registers.modifySelected f } : Device) =
      d.withQueue d.registers.config.queue (f r) := by
  have same : d.registers.queues[d.registers.config.queue.toNat]? = some r := found
  simp only [RegisterFile.modifySelected, withQueue, List.modify_eq_set_getElem?, same]
  rfl

/-- What a write to the ready register comes to: nothing, or the selected queue is up. -/
inductive MadeReady (d : Device) : Device → Prop
  | same : MadeReady d d
  | up {r : Registers} {layout : Layout}
    (found : d.registers.queues[d.registers.config.queue.toNat]? = some r) (down : r.isUp = false)
    (early : d.isRunning = false)
    (accepted : Layout.new r.size d.registers.maxQueueSize r.desc r.driver r.device = .ok layout)
    (backed : layout.Backed ⟨d.machine.ram, d.machine.dma, d.registers.config.queue⟩) :
    MadeReady d
      { d.withQueue d.registers.config.queue
          { r with ready := true, live := some d.machine.queues.length } with
        machine := { d.machine with
          queues := d.machine.queues ++
            [{ index := d.registers.config.queue, layout, indirect := d.mayUseTables }] } }

/-- A queue counts as ready exactly if it is up, so a mark that is taken back leaves no trace. -/
theorem madeReady {d : Device} (honest : ∀ r ∈ d.registers.queues, r.ready = r.isUp) (v : UInt32) :
    MadeReady d (d.makeReady v) := by
  simp only [makeReady]
  split
  · exact .same
  next asked =>
    simp only [Bool.or_eq_true, decide_eq_true_eq, not_or, Option.isNone_iff_eq_none] at asked
    obtain ⟨r, selected⟩ := Option.ne_none_iff_exists'.mp asked.2
    have found : d.registers.queues[d.registers.config.queue.toNat]? = some r := selected
    have ready := honest r (List.mem_of_getElem? found)
    rw [modifySelected_eq_withQueue selected]
    have marked := getElem?_withQueue_self found r.markReady
    have up := (d.withQueue d.registers.config.queue r.markReady).bringsUp d.registers.config.queue
    generalize (d.withQueue d.registers.config.queue r.markReady).bringUpQueue _ = d' at up ⊢
    cases up with
    | absent none =>
      rw [marked] at none
      cases none
    | already found' isUp =>
      -- A queue that is up was ready before, so the mark changes nothing.
      cases Option.some.inj (marked.symm.trans found')
      have same : r.markReady = r := by
        rw [show r.isUp = true from isUp] at ready
        rw [Registers.markReady, ← ready]
      rw [same, withQueue_self found]
      exact .same
    | refused found' down =>
      -- A queue that is down was not ready before, so without the mark it is as it was.
      cases Option.some.inj (marked.symm.trans found')
      have same : r.markReady.unmarkReady = r := by
        rw [show r.isUp = false from down] at ready
        rw [Registers.unmarkReady, ← ready]
        rfl
      rw [withQueue_withQueue, same, withQueue_self found]
      exact .same
    | done found' down early accepted backed =>
      cases Option.some.inj (marked.symm.trans found')
      rw [withQueue_withQueue]
      exact .up (r := r) found down early accepted backed

/-! ### Any access -/

/-- What a write to a register other than a reset can do to the queues. -/
inductive Reshapes (d : Device) : Device → Prop
  | kept {d' : Device} (queues : d'.registers.queues = d.registers.queues)
    (virtqueues : d'.machine.queues = d.machine.queues) : Reshapes d d'
  /-- A queue that is down takes what is written to it. -/
  | programmed {d' : Device} (index : Nat) (f : Registers → Registers)
    (frozen : ∀ r, r.isUp = true → f r = r)
    (same : ∀ r, (f r).ready = r.ready ∧ (f r).live = r.live)
    (queues : d'.registers.queues = d.registers.queues.modify index f)
    (virtqueues : d'.machine.queues = d.machine.queues) : Reshapes d d'
  | readied {d' : Device} (made : MadeReady d d') : Reshapes d d'

theorem writeSize_up {r : Registers} (up : r.isUp = true) (v : UInt32) : r.writeSize v = r :=
  if_pos up

theorem writeAddr_up {r : Registers} (up : r.isUp = true) (ring : Queue.RingAddress)
    (half : Queue.Half) (v : UInt32) : r.writeAddr ring half v = r :=
  if_pos up

theorem ready_writeSize (r : Registers) (v : UInt32) : (r.writeSize v).ready = r.ready := by
  simp only [Registers.writeSize]
  split <;> rfl

theorem ready_writeAddr (r : Registers) (ring : Queue.RingAddress) (half : Queue.Half)
    (v : UInt32) : (r.writeAddr ring half v).ready = r.ready := by
  simp only [Registers.writeAddr]
  split
  · rfl
  · cases ring <;> rfl

theorem queues_ring (d : Device) (v : UInt32) : (d.ring v).machine.queues = d.machine.queues := by
  obtain ⟨calls, same⟩ := d.ring_eq v
  rw [same]
  rfl

theorem queues_acknowledge (d : Device) (v : UInt32) :
    (d.acknowledge v).machine.queues = d.machine.queues := by
  simp only [acknowledge]
  split <;> rfl

theorem queues_deliver (d : Device) :
    d.deliver.registers.queues = d.registers.queues ∧
      d.deliver.machine.queues = d.machine.queues := by
  rw [deliver_eq]
  exact ⟨rfl, rfl⟩

/-- A status other than zero touches no queue. -/
theorem queues_writeStatus (d : Device) {v : UInt32} (nonzero : v ≠ 0) :
    (d.writeStatus v).registers.queues = d.registers.queues ∧
      (d.writeStatus v).machine.queues = d.machine.queues := by
  have written := d.statusWritten v
  generalize d.writeStatus v = d' at written ⊢
  cases written with
  | reset zero => exact absurd zero nonzero
  | rejected _ => exact ⟨rfl, rfl⟩
  | moved _ follows still => exact ⟨rfl, rfl⟩
  | started _ follows running before untold => exact queues_deliver _

theorem reshapes_register {d : Device} (honest : ∀ r ∈ d.registers.queues, r.ready = r.isUp)
    {value : UInt64} {r : Register}
    (noReset : (Action.access (.write value) r.offset 4).isReset = false) :
    Reshapes d (d.carryOut value.toUInt32 r) := by
  have nonzero := Action.ne_zero_of_write noReset
  clear noReset
  generalize value.toUInt32 = v at nonzero ⊢
  cases r with
  | queueReady => exact .readied (madeReady honest v)
  | queueNotify =>
    exact .kept (congrArg RegisterFile.queues (registers_ring d v)) (queues_ring d v)
  | interruptAcknowledge =>
    exact .kept (congrArg RegisterFile.queues (registers_acknowledge d v)) (queues_acknowledge d v)
  | status =>
    obtain ⟨queues, virtqueues⟩ := queues_writeStatus d (nonzero rfl)
    exact .kept queues virtqueues
  -- Programming leaves a queue alone that is up, and never brings one up.
  | queueSize =>
    refine .programmed d.registers.config.queue.toNat (·.writeSize v) ?_ ?_ rfl rfl
    · intro r up
      exact writeSize_up up v
    · intro r
      exact ⟨ready_writeSize r v, live_writeSize r v⟩
  | queueAddress ring half =>
    refine .programmed d.registers.config.queue.toNat (·.writeAddr ring half v) ?_ ?_ rfl rfl
    · intro r up
      exact writeAddr_up up ring half v
    · intro r
      exact ⟨ready_writeAddr r ring half v, live_writeAddr r ring half v⟩
  | _ => exact .kept rfl rfl

namespace Reshapes

variable {d d' : Device}

/-- Virtqueues are only added, and those that are there stay as they are to the last field. -/
theorem virtqueues (reshapes : Reshapes d d') : d.machine.queues <+: d'.machine.queues := by
  cases reshapes with
  | kept queues virtqueues => exact virtqueues ▸ List.prefix_rfl
  | programmed index f frozen same queues virtqueues => exact virtqueues ▸ List.prefix_rfl
  | readied made =>
    cases made with
    | same => exact List.prefix_rfl
    | up found down early accepted backed => exact List.prefix_append ..

/-- Registers that are up stay as they are. -/
theorem frozen (reshapes : Reshapes d d') {i : Nat} {r : Registers}
    (found : d.registers.queues[i]? = some r) (up : r.isUp = true) :
    d'.registers.queues[i]? = some r := by
  cases reshapes with
  | kept queues virtqueues => exact queues ▸ found
  | programmed index f frozen same queues virtqueues =>
    rw [queues, List.getElem?_modify, found]
    by_cases here : index = i
    · simp [here, frozen r up]
    · simp [here]
  | readied made =>
    cases made with
    | same => exact found
    | @up r' layout found' down early accepted backed =>
      -- The queue that came up was down, so it is another one.
      have apart : d.registers.config.queue.toNat ≠ i := by
        rintro rfl
        rw [found'] at found
        cases found
        rw [down] at up
        cases up
      exact (List.getElem?_set_ne apart).trans found

/-- Once the driver is done, no queue is brought up. -/
theorem live (reshapes : Reshapes d d') (running : d.isRunning = true) :
    d'.registers.queues.map (·.live) = d.registers.queues.map (·.live) := by
  cases reshapes with
  | kept queues virtqueues => rw [queues]
  | programmed index f frozen same queues virtqueues =>
    rw [queues]
    exact Machine.map_modify (fun r => (same r).2) _ _
  | readied made =>
    cases made with
    | same => rfl
    | up found down early accepted backed =>
      rw [running] at early
      cases early

end Reshapes

/-! ### Registers and virtqueues -/

/-- The registers of a queue and the virtqueue that they were brought up as. -/
structure Matched (d : Device) : Prop where
  honest : ∀ r ∈ d.registers.queues, r.ready = r.isUp
  agreed : ∀ (i : Nat) (r : Registers) (number : Nat), d.registers.queues[i]? = some r →
    r.live = some number → ∃ q, d.machine.broughtUp[number]? = some q ∧ q.index.toNat = i ∧
      Layout.new r.size d.registers.maxQueueSize r.desc r.driver r.device = .ok q.layout
  placed : ∀ q ∈ d.machine.broughtUp, q.layout.Placed

namespace Matched

variable {d d' : Device}

theorem of_same (matched : d.Matched) (queues : d'.registers.queues = d.registers.queues)
    (virtqueues : d'.machine.broughtUp = d.machine.broughtUp)
    (limit : d'.registers.maxQueueSize = d.registers.maxQueueSize) : d'.Matched where
  honest := by
    rw [queues]
    exact matched.honest
  agreed := by
    rw [queues, virtqueues, limit]
    exact matched.agreed
  placed := by
    rw [virtqueues]
    exact matched.placed

theorem blank (matched : d.Matched)
    (queues : d'.registers.queues = d.registers.queues.map fun _ => .blank)
    (virtqueues : d'.machine.broughtUp = d.machine.broughtUp) : d'.Matched where
  honest r member := by
    rw [queues] at member
    obtain ⟨_, _, rfl⟩ := List.mem_map.mp member
    rfl
  agreed i r number found live := by
    rw [queues, List.getElem?_map, Option.map_eq_some_iff] at found
    obtain ⟨_, _, rfl⟩ := found
    cases live
  placed := by
    rw [virtqueues]
    exact matched.placed

/-- A queue that is programmed is down, so what it agrees with is not concerned. -/
theorem programmed (matched : d.Matched) {index : Nat} {f : Registers → Registers}
    (frozen : ∀ r, r.isUp = true → f r = r)
    (same : ∀ r, (f r).ready = r.ready ∧ (f r).live = r.live)
    (queues : d'.registers.queues = d.registers.queues.modify index f)
    (virtqueues : d'.machine.broughtUp = d.machine.broughtUp)
    (limit : d'.registers.maxQueueSize = d.registers.maxQueueSize) : d'.Matched where
  honest r member := by
    rw [queues] at member
    obtain ⟨i, found⟩ := List.getElem?_of_mem member
    rw [List.getElem?_modify] at found
    obtain ⟨old, before, rfl⟩ := Option.map_eq_some_iff.mp found
    have honest := matched.honest old (List.mem_of_getElem? before)
    split
    · rw [Registers.isUp, (same old).1, (same old).2]
      exact honest
    · exact honest
  agreed i r number found live := by
    rw [queues, List.getElem?_modify] at found
    obtain ⟨old, before, rfl⟩ := Option.map_eq_some_iff.mp found
    rw [virtqueues, limit]
    -- Only a queue with a number can be asked about here, and that one is frozen.
    have still : (if index = i then f old else old) = old := by
      split
      next here =>
        rw [if_pos here, (same old).2] at live
        have up : old.isUp = true := by
          rw [Registers.isUp, live]
          rfl
        exact frozen old up
      · rfl
    rw [still] at live ⊢
    exact matched.agreed i old number before live
  placed := by
    rw [virtqueues]
    exact matched.placed

/-- A virtqueue is new when it is brought up, and has the layout that its registers stand for. -/
theorem madeReady (matched : d.Matched) (made : MadeReady d d') : d'.Matched := by
  cases made with
  | same => exact matched
  | @up r layout found down early accepted backed =>
    -- The number of the new virtqueue is the count of the old ones.
    have count : d.machine.broughtUp.length = d.machine.queues.length := List.length_map ..
    refine ⟨?_, ?_, ?_⟩
    · intro r' member
      rcases List.mem_or_eq_of_mem_set member with old | rfl
      · exact matched.honest r' old
      · rfl
    · intro i r' number found' live
      show ∃ q, (List.map Virtqueue.asBroughtUp (d.machine.queues ++ _))[number]? = some q ∧ _
      rw [List.map_append]
      change (d.registers.queues.set d.registers.config.queue.toNat _)[i]? = some r' at found'
      by_cases here : d.registers.config.queue.toNat = i
      · subst here
        rw [List.getElem?_set_self (List.getElem?_eq_some_iff.mp found).1] at found'
        cases found'
        cases live
        refine ⟨⟨d.registers.config.queue, layout, d.mayUseTables, 0, 0, false, false⟩, ?_, rfl,
          accepted⟩
        rw [← count]
        exact List.getElem?_concat_length
      · rw [List.getElem?_set_ne here] at found'
        obtain ⟨q, known, rest⟩ := matched.agreed i r' number found' live
        have there := (List.getElem?_eq_some_iff.mp known).1
        exact ⟨q, (List.getElem?_append_left there).trans known, rest⟩
    · intro q member
      rw [Machine.broughtUp, List.map_append] at member
      rcases List.mem_append.mp member with old | new
      · exact matched.placed q old
      · cases List.mem_singleton.mp new
        exact Layout.placed_of_new accepted backed

theorem reshapes (matched : d.Matched) (reshapes : Reshapes d d')
    (limit : d'.registers.maxQueueSize = d.registers.maxQueueSize) : d'.Matched := by
  have brought (virtqueues : d'.machine.queues = d.machine.queues) :
      d'.machine.broughtUp = d.machine.broughtUp := by
    rw [Machine.broughtUp, virtqueues]
    rfl
  cases reshapes with
  | kept queues virtqueues => exact matched.of_same queues (brought virtqueues) limit
  | programmed index f frozen same queues virtqueues =>
    exact matched.programmed frozen same queues (brought virtqueues) limit
  | readied made => exact matched.madeReady made

theorem placed_of_found (matched : d.Matched) {number : Nat} {q : Virtqueue}
    (found : d.machine.queues[number]? = some q) : q.layout.Placed :=
  matched.placed q.asBroughtUp (List.mem_of_getElem? (Machine.getElem?_broughtUp found))

end Matched

theorem writeStatus_blank {d : Device} {v : UInt32} (zero : v = 0) :
    (d.writeStatus v).registers.queues = d.registers.queues.map (fun _ => .blank) ∧
      (d.writeStatus v).machine.broughtUp = d.machine.broughtUp := by
  simp only [writeStatus, zero, if_true]
  rw [powerOn_eq]
  exact ⟨rfl, Machine.broughtUp_foldl_retireLive d.machine d.registers.queues⟩

theorem shutdown_stands (d : Device) : d.shutdown.registers = d.registers ∧
    d.shutdown.machine.broughtUp = d.machine.broughtUp := by
  rw [shutdown_eq]
  exact ⟨rfl, Machine.broughtUp_foldl_retireLive d.machine d.registers.queues⟩

theorem Aside.queues {d d' : Device} (aside : Aside d d') :
    d'.registers.queues = d.registers.queues ∧ d'.machine.broughtUp = d.machine.broughtUp := by
  obtain ⟨block, registers⟩ := aside.registers
  refine ⟨?_, Machine.broughtUp_of_lasting aside.virtqueues⟩
  rw [registers]

/-- Virtqueues are only added. -/
theorem Happens.broughtUp {d d' : Device} {action : Action} (happens : d.Happens action d')
    (matched : d.Matched) : d.machine.broughtUp <+: d'.machine.broughtUp := by
  cases happens with
  | register value r =>
    cases reset : (Action.access (.write value) r.offset 4).isReset with
    | true =>
      obtain ⟨rfl, zero⟩ := (Action.isReset_write value r).mp reset
      exact (writeStatus_blank (d := d) zero).2 ▸ List.prefix_rfl
    | false => exact (reshapes_register matched.honest reset).virtqueues.map _
  | shutdown => exact d.shutdown_stands.2 ▸ List.prefix_rfl
  | aside elsewhere going aside => exact aside.queues.2 ▸ List.prefix_rfl

theorem Happens.matched {d d' : Device} {action : Action} (happens : d.Happens action d')
    (matched : d.Matched) (limit : d'.registers.maxQueueSize = d.registers.maxQueueSize) :
    d'.Matched := by
  cases happens with
  | register value r =>
    cases reset : (Action.access (.write value) r.offset 4).isReset with
    | true =>
      obtain ⟨rfl, zero⟩ := (Action.isReset_write value r).mp reset
      obtain ⟨queues, virtqueues⟩ := writeStatus_blank (d := d) zero
      exact matched.blank queues virtqueues
    | false => exact matched.reshapes (reshapes_register matched.honest reset) limit
  | shutdown =>
    obtain ⟨registers, virtqueues⟩ := d.shutdown_stands
    exact matched.of_same (congrArg RegisterFile.queues registers) virtqueues limit
  | aside elsewhere going aside => exact matched.of_same aside.queues.1 aside.queues.2 limit

/-! ### From bring-up to reset -/

/-- What holds of a later state of a device that was not reset in between: the registers of queues
that are up stand, so do the virtqueues, and while the device runs no queue is brought up. -/
structure Stands (d d' : Device) : Prop where
  registers : ∀ (i : Nat) (r : Registers), d.registers.queues[i]? = some r → r.isUp = true →
    d'.registers.queues[i]? = some r
  virtqueues : d.machine.broughtUp <+: d'.machine.broughtUp
  running : d.isRunning = true → d'.isRunning = true
  live : d.isRunning = true →
    d'.registers.queues.map (·.live) = d.registers.queues.map (·.live)

namespace Stands

theorem refl (d : Device) : Stands d d :=
  ⟨fun _ _ found _ => found, List.prefix_rfl, id, fun _ => rfl⟩

theorem virtqueue {d d' : Device} (stands : Stands d d') {number : Nat} {q : Virtqueue}
    (found : d.machine.queues[number]? = some q) :
    ∃ q', d'.machine.queues[number]? = some q' ∧ q'.asBroughtUp = q.asBroughtUp :=
  Machine.virtqueue_of_prefix stands.virtqueues found

theorem trans {d d' d'' : Device} (first : Stands d d') (second : Stands d' d'') :
    Stands d d'' where
  registers i r found up := second.registers i r (first.registers i r found up) up
  virtqueues := first.virtqueues.trans second.virtqueues
  running now := second.running (first.running now)
  live now := (second.live (first.running now)).trans (first.live now)

end Stands

theorem Happens.stands {d d' : Device} {action : Action} (happens : d.Happens action d')
    (matched : d.Matched) (noReset : action.isReset = false) : Stands d d' := by
  -- Without a reset the status only grows, so a device that runs goes on running.
  have running := Config.Status.driverOk_of_includes (happens.advances noReset).includes
  have grown := happens.broughtUp matched
  cases happens with
  | register value r =>
    have reshapes := reshapes_register matched.honest noReset
    exact ⟨fun _ _ => reshapes.frozen, grown, running, reshapes.live⟩
  | shutdown =>
    obtain ⟨registers, _⟩ := d.shutdown_stands
    refine ⟨?_, grown, running, fun _ => ?_⟩
    · intro i r found _
      rw [registers]
      exact found
    · rw [registers]
  | aside elsewhere going aside =>
    refine ⟨?_, grown, running, fun _ => aside.live⟩
    intro i r found _
    rw [aside.queues.1]
    exact found

/-! ### The session of a running device -/

/-- As long as the backend listens, it holds a session of a running device. -/
def Served (d : Device) : Prop :=
  d.isRunning = true → d.backend.isShutDown = false →
    ∃ n s, d.session = some n ∧ d.sessions[n]? = some s

theorem Served.of_same {d d' : Device} (served : d.Served) (running : d'.isRunning = d.isRunning)
    (same : SameSession d d') : d'.Served := by
  intro now listens
  rw [running] at now
  rw [same.backend] at listens
  rw [same.session, same.sessions]
  exact served now listens

theorem Served.writeStatus {d : Device} (served : d.Served) (prompt : d.Prompt) (v : UInt32) :
    (d.writeStatus v).Served := by
  have written := d.statusWritten v
  generalize d.writeStatus v = d' at written ⊢
  cases written with
  | reset zero =>
    rw [powerOn_eq]
    intro now
    cases now
  | rejected nonzero => exact served
  | moved nonzero follows still => exact served.of_same (still prompt) ⟨rfl, rfl, rfl, rfl⟩
  | @started status nonzero follows running before untold =>
    -- The session that starts is the last one on the list.
    intro _ listens
    rw [deliver_eq] at listens ⊢
    have up : (d.withConfig (d.registers.config.settle status)).backend.isShutDown = false :=
      listens
    simp only [up, Bool.false_eq_true, if_false]
    exact ⟨_, _, rfl, List.getElem?_concat_length⟩

theorem Happens.served {d d' : Device} {action : Action} (happens : d.Happens action d')
    (prompt : d.Prompt) (served : d.Served) : d'.Served := by
  have running (other : action.value? .status = none) := happens.isRunning other
  cases happens with
  | register value r =>
    by_cases status : r = .status
    · rw [status]
      exact served.writeStatus prompt _
    · have other : (Action.access (.write value) r.offset 4).value? .status = none := by
        rw [Action.value?_write, if_neg status]
      exact served.of_same (running other) (sameSession_carryOut d _ status)
  | shutdown =>
    intro _ listens
    rw [shutdown_eq] at listens
    cases listens
  | aside elsewhere going aside => exact served.of_same (running (elsewhere _)) aside.toSameSession

/-! ### Runs -/

/-- What holds of queues and sessions of every device that can be reached. -/
structure Established (d : Device) : Prop extends Orderly d where
  matched : d.Matched
  served : d.Served

theorem established_new {profile : Profile} {options : Options} {ram : Memory.Ram} {d : Device}
    (built : Device.new profile options ram = .ok d) : d.Established := by
  have orderly := orderly_new built
  rw [new_eq_ok built] at orderly ⊢
  refine ⟨orderly, ⟨?_, ?_, ?_⟩, ?_⟩
  · intro r member
    cases List.eq_of_mem_replicate member
    rfl
  · intro i r number found live
    cases List.eq_of_mem_replicate (List.mem_of_getElem? found)
    cases live
  · intro q member
    cases member
  · intro now
    cases now

theorem established_step {d : Device} (established : d.Established) (action : Action) :
    (d.step action).1.Established := by
  have happens := step_happens established.toSettled action
  have fixed := (d.steady_step established.quiet action).fixed
  have limit : (d.step action).1.registers.maxQueueSize = d.registers.maxQueueSize :=
    congrArg (fun fixed => fixed.2.1.2.1) fixed
  exact ⟨orderly_step established.toOrderly action, happens.matched established.matched limit,
    happens.served established.prompt established.served⟩

theorem established_run {d : Device} (established : d.Established) (actions : List Action) :
    (d.run actions).1.Established :=
  run_keeps (P := Established) (fun _ action now => established_step now action) actions established

theorem stands_run {d : Device} (established : d.Established) {actions : List Action}
    (noReset : ∀ action ∈ actions, action.isReset = false) : Stands d (d.run actions).1 := by
  induction actions generalizing d with
  | nil => exact .refl d
  | cons action later ih =>
    have happens := step_happens established.toSettled action
    have first := happens.stands established.matched (noReset action List.mem_cons_self)
    exact first.trans (ih (established_step established action)
      fun action member => noReset action (List.mem_cons_of_mem _ member))

theorem reshapes_access {d : Device} (established : d.Established) {access : Access}
    {offset : UInt64} {size : UInt8}
    (noReset : (Action.access access offset size).isReset = false) :
    Reshapes d (d.access access offset size).1 := by
  have accessed := accessed established.toSettled access offset size
  generalize (d.access access offset size).1 = d' at accessed ⊢
  cases accessed with
  | register value r =>
    exact reshapes_register established.matched.honest noReset
  | beside block elsewhere => exact .kept rfl rfl

/-- A write to the ready register that brings no queue up does nothing at all. -/
theorem refused_ready {d : Device} (established : d.Established) (value : UInt64)
    (refused : (d.access (.write value) Register.queueReady.offset 4).1.queueIsUp
      d.registers.config.queue.toNat = false) :
    (d.access (.write value) Register.queueReady.offset 4).1 = d := by
  have whole := access_register established.toSettled value .queueReady
  have made := madeReady established.matched.honest value.toUInt32
  rw [whole] at refused ⊢
  change (d.makeReady value.toUInt32).queueIsUp _ = false at refused
  show d.makeReady value.toUInt32 = d
  generalize d.makeReady value.toUInt32 = d' at made refused ⊢
  cases made with
  | same => rfl
  | up found down early accepted backed =>
    -- The selected queue would be up, but it is not.
    have known := (List.getElem?_eq_some_iff.mp found).1
    simp [queueIsUp, withQueue, List.getElem?_set_self known, Registers.isUp] at refused

/-- Registers, virtqueues and sessions of a device agree in every state. A queue is ready if and
only if it is up, and then its registers give the layout of its virtqueue. From bring-up to the next
reset no access changes the registers of the queue or anything about the virtqueue; while the device
runs no queue is brought up, and the session of the backend shows the queues that are. A write to
the ready register that brings no queue up changes nothing. -/
theorem queues_stand {profile : Profile} {options : Options} {ram : Memory.Ram} {d₀ d : Device}
    (built : Device.new profile options ram = .ok d₀) (actions : List Action)
    (reached : (d₀.run actions).1 = d) :
    (∀ (i : Nat) (r : Registers), d.registers.queues[i]? = some r →
        r.ready = r.isUp ∧
        ∀ number, r.live = some number → ∃ q, d.machine.queues[number]? = some q ∧
          q.index.toNat = i ∧
          Layout.new r.size d.registers.maxQueueSize r.desc r.driver r.device = .ok q.layout) ∧
      (∀ access offset size, (Action.access access offset size).isReset = false →
        (∀ (i : Nat) (r : Registers), d.registers.queues[i]? = some r → r.isUp = true →
          (d.access access offset size).1.registers.queues[i]? = some r) ∧
        ∀ (number : Nat) (q : Virtqueue), d.machine.queues[number]? = some q →
          (d.access access offset size).1.machine.queues[number]? = some q) ∧
      (∀ value, (d.access (.write value) Register.queueReady.offset 4).1.queueIsUp
          d.registers.config.queue.toNat = false →
        (d.access (.write value) Register.queueReady.offset 4).1 = d) ∧
      (d.isRunning = true → d.backend.isShutDown = false →
        ∃ (n : Nat) (s : Session), d.sessions[n]? = some s ∧ s.retired = false) ∧
      ∀ later, (∀ action ∈ later, action.isReset = false) →
        (∀ (i : Nat) (r : Registers), d.registers.queues[i]? = some r → r.isUp = true →
          (d.run later).1.registers.queues[i]? = some r) ∧
        (∀ (number : Nat) (q : Virtqueue), d.machine.queues[number]? = some q →
          ∃ q', (d.run later).1.machine.queues[number]? = some q' ∧
            q'.asBroughtUp = q.asBroughtUp) ∧
        (d.isRunning = true → (d.run later).1.registers.queues.map (·.live) =
          d.registers.queues.map (·.live)) ∧
        ∀ (n : Nat) (s : Session), d.sessions[n]? = some s → s.retired = false →
          s.queues = (d.run later).1.registers.queues.map (·.live) := by
  have established : d.Established := reached ▸ established_run (established_new built) actions
  refine ⟨?_, ?_, fun value => refused_ready established value, ?_, ?_⟩
  · intro i r found
    refine ⟨established.matched.honest r (List.mem_of_getElem? found), ?_⟩
    intro number live
    -- What the registers agree with is the virtqueue as it was brought up, and its index and layout
    -- have not changed since.
    obtain ⟨brought, known, index, accepted⟩ := established.matched.agreed i r number found live
    rw [Machine.broughtUp, List.getElem?_map] at known
    obtain ⟨q, there, rfl⟩ := Option.map_eq_some_iff.mp known
    exact ⟨q, there, index, accepted⟩
  · intro access offset size noReset
    have reshapes := reshapes_access established noReset
    refine ⟨fun i r => reshapes.frozen, ?_⟩
    intro number q found
    exact getElem?_of_prefix reshapes.virtqueues found
  · intro running listens
    obtain ⟨n, s, held, found⟩ := established.served running listens
    refine ⟨n, s, found, ?_⟩
    rw [established.linked.current n s found, held]
    simp
  · intro later noReset
    have stands := stands_run established noReset
    refine ⟨stands.registers, fun number q => stands.virtqueue, stands.live, ?_⟩
    intro n s found live
    -- A session that is not retired is the one the device holds, and the device runs.
    have held := established.linked.held found live
    have running := established.linked.running n held
    exact (established.linked.matching n s held found).1.trans (stands.live running).symm

/-- Writes of the driver to registers, each an offset and a value. -/
def driverWrites (list : List (UInt64 × UInt64)) : List Action :=
  list.map fun (offset, value) => .access (.write value) offset 4

/-! The driver of the console wants a larger queue and a second one while its session is running.
The queue that is up takes no new size; the other one may be programmed, but not brought up. -/

def consoleWishes : List Action :=
  driverWrites [(0x30, 1), (0x38, 8)]

def consoleWishing : Device :=
  (consoleStart.run (consoleActions.take 13 ++ consoleWishes)).1

theorem consoleWishing_stands :
    (∃ q, consoleWishing.machine.queues[0]? = some q ∧ q.index.toNat = 0 ∧
        Layout.new 4 256 0x1000 0x1100 0x1200 = .ok q.layout) ∧
      (consoleRunning.access (.write 8) 0x38 4).1.registers.queues[0]? =
        some ⟨4, true, 0x1000, 0x1100, 0x1200, some 0⟩ ∧
      (consoleWishing.access (.write 1) Register.queueReady.offset 4).1 = consoleWishing ∧
      (∃ (n : Nat) (s : Session), consoleWishing.sessions[n]? = some s ∧ s.retired = false) ∧
      [some 0, none] = (consoleRunning.run consoleWishes).1.registers.queues.map (·.live) := by
  have built := Setup.new_of_build consoleStart_built
  have first : consoleWishing.registers.queues[0]? =
      some ⟨4, true, 0x1000, 0x1100, 0x1200, some 0⟩ := by
    decide +kernel
  have before : consoleRunning.registers.queues[0]? =
      some ⟨4, true, 0x1000, 0x1100, 0x1200, some 0⟩ := by
    decide +kernel
  have sizing : (Action.access (.write 8) 0x38 4).isReset = false := by decide +kernel
  have refused : (consoleWishing.access (.write 1) Register.queueReady.offset 4).1.queueIsUp
      consoleWishing.registers.config.queue.toNat = false := by
    decide +kernel
  have running : consoleWishing.isRunning = true := by decide +kernel
  have listens : consoleWishing.backend.isShutDown = false := by decide +kernel
  have session : consoleRunning.sessions[0]? = some ⟨0x100000000, [some 0, none], false⟩ := by
    decide +kernel
  have noReset : ∀ action ∈ consoleWishes, action.isReset = false := by decide +kernel
  obtain ⟨queues, _, ready, served, _⟩ := queues_stand built
    (consoleActions.take 13 ++ consoleWishes) rfl (d := consoleWishing)
  obtain ⟨_, frozen, _, _, later⟩ :=
    queues_stand built (consoleActions.take 13) rfl (d := consoleRunning)
  refine ⟨(queues 0 _ first).2 0 rfl, (frozen _ _ _ sizing).1 0 _ before rfl, ready 1 refused,
    served running listens, ?_⟩
  exact (later consoleWishes noReset).2.2.2 0 _ session rfl

end Device

end VirtioMmio
