import VirtioMmio.Proofs.Config.Handshake
import VirtioMmio.Proofs.Device.Failures

/-!
A driver that starts over. Whatever became of a device, a write of zero takes it back to where the
bring-up begins, and from there on nothing that a careful driver writes is refused. The writes are
taken in stages: the handshake concerns the negotiation only, programming concerns the selected
queue only, and then the queue comes up and the device is handed over. Main result:
`driver_can_recover`.
-/

namespace VirtioMmio

open Backend (Session)
open Config (State Status)
open Queue (Half Registers RingAddress Virtqueue)
open Transport (Register RegisterFile)
open Vring (Layout)

/-! ### What a driver writes -/

/-- What a driver decides on: the features it wants, and a queue with its size and the addresses of
its rings. -/
structure Plan where
  features : UInt64
  queue : UInt16
  size : UInt16
  desc : UInt64
  driver : UInt64
  device : UInt64

namespace Plan

/-- The registers of the queue once they are programmed. -/
def registers (p : Plan) : Registers :=
  { size := p.size, desc := p.desc, driver := p.driver, device := p.device }

/-- Everything a driver writes from the reset on until it is done: it resets the device, shakes
hands, selects the queue and programs it, makes it ready, and says that it is done. -/
def writes (p : Plan) (halves : List Half) (parts : List (RingAddress × Half)) :
    List (Register × UInt32) :=
  [(.status, 0)] ++ State.handshake p.features halves ++ [(.queueSelect, p.queue.toUInt32)] ++
    p.registers.programming parts ++ [(.queueReady, 1), (.status, 15)]

end Plan

namespace Device

/-- Writes of the driver, each to a register by its name. -/
def registerWrites (list : List (Register × UInt32)) : List Action :=
  driverWrites (list.map fun (r, v) => (r.offset, v.toUInt64))

def carryOutAll (d : Device) (list : List (Register × UInt32)) : Device :=
  list.foldl (fun d w => d.carryOut w.2 w.1) d

theorem carryOutAll_append (d : Device) (first second : List (Register × UInt32)) :
    d.carryOutAll (first ++ second) = (d.carryOutAll first).carryOutAll second :=
  List.foldl_append

/-- Writes to registers that can be written are carried out one after the other, and each is
answered with zero. -/
theorem run_registerWrites {d : Device} (settled : d.Settled) {list : List (Register × UInt32)}
    (writable : ∀ w ∈ list, w.1.isReadOnly = false) :
    d.run (registerWrites list) =
      (d.carryOutAll list, list.map fun _ => .access (.ok 0)) := by
  induction list generalizing d with
  | nil => rfl
  | cons w list ih =>
    obtain ⟨r, v⟩ := w
    have here : r.isReadOnly = false := writable _ List.mem_cons_self
    have stepped : d.step (.access (.write v.toUInt64) r.offset 4) =
        (d.carryOut v r, .access (.ok 0)) := by
      rw [step, access_register settled, here, UInt32.toUInt32_toUInt64]
      rfl
    have settled' : (d.carryOut v r).Settled := by
      have next := settled_step settled (.access (.write v.toUInt64) r.offset 4)
      rw [stepped] at next
      exact next
    have later := ih settled' fun w member => writable w (List.mem_cons_of_mem _ member)
    simp only [registerWrites, driverWrites, List.map_cons, run, stepped] at later ⊢
    rw [later]
    rfl

/-! ### The stages -/

/-- The write concerns the negotiation only: it is no reset and does not say that the driver is
done. -/
def isNegotiation (w : Register × UInt32) : Bool :=
  match w.1 with
  | .offeredFeaturesWindow | .driverFeatures | .driverFeaturesWindow | .queueSelect => true
  | .status => w.2 != 0 && w.2 &&& 4 == 0
  | _ => false

theorem writeStatus_early (d : Device) {v : UInt32} (nonzero : v ≠ 0) (early : v &&& 4 = 0) :
    d.writeStatus v = d.withConfig (d.registers.config.writeStatus v).2 := by
  simp only [writeStatus, if_neg nonzero]
  cases taken : (Status.ofBits? v).bind d.registers.config.status.write? with
  | none =>
    have refused : d.registers.config.writeStatus v = (.rejected, d.registers.config) := by
      simp only [State.writeStatus, if_neg nonzero, taken]
    rw [refused]
  | some status =>
    have unset : status.driverOk = false := by
      obtain ⟨asked, known, written⟩ := Option.bind_eq_some_iff.mp taken
      obtain ⟨rfl, _⟩ := (Status.write?_eq_some_iff _ _ _).mp written
      simp only [Status.ofBits?] at known
      split at known
      · cases known
        simp [early]
      · cases known
    rw [State.writeStatus_taken nonzero taken, unset]
    rfl

theorem carryOut_negotiation (d : Device) {w : Register × UInt32} (only : isNegotiation w = true) :
    d.carryOut w.2 w.1 = d.withConfig (d.registers.config.write w.2 w.1) := by
  obtain ⟨r, v⟩ := w
  cases r with
  | status =>
    simp only [isNegotiation, Bool.and_eq_true, bne_iff_ne, beq_iff_eq] at only
    exact d.writeStatus_early only.1 only.2
  | offeredFeaturesWindow | driverFeatures | driverFeaturesWindow | queueSelect => rfl
  | _ => cases only

theorem carryOutAll_negotiation (d : Device) {list : List (Register × UInt32)}
    (only : ∀ w ∈ list, isNegotiation w = true) :
    d.carryOutAll list = d.withConfig (d.registers.config.writeAll list) := by
  induction list generalizing d with
  | nil => rfl
  | cons w list ih =>
    have here := d.carryOut_negotiation (only w List.mem_cons_self)
    refine (ih (d.carryOut w.2 w.1) fun w member => only w (List.mem_cons_of_mem _ member)).trans ?_
    rw [here]
    rfl

theorem isNegotiation_handshake (features : UInt64) (halves : List Half) :
    ∀ w ∈ State.handshake features halves, isNegotiation w = true := by
  intro w member
  simp only [State.handshake, State.featureWrites, List.mem_append, List.mem_flatMap, List.mem_cons,
    List.not_mem_nil, or_false] at member
  rcases member with ((rfl | rfl) | ⟨half, _, rfl | rfl⟩) | rfl <;> rfl

/-- The write concerns the selected queue only, and does not bring it up. -/
def isProgramming : Register → Bool
  | .queueSize | .queueAddress _ _ => true
  | _ => false

theorem carryOutAll_programming {d : Device} {r : Registers}
    (selected : d.registers.selected? = some r) {list : List (Register × UInt32)}
    (only : ∀ w ∈ list, isProgramming w.1 = true) :
    d.carryOutAll list = d.withQueue d.registers.config.queue (r.writeAll list) := by
  induction list generalizing d r with
  | nil => exact (withQueue_self selected).symm
  | cons w list ih =>
    obtain ⟨register, v⟩ := w
    have here : isProgramming register = true := only _ List.mem_cons_self
    have written : d.carryOut v register =
        d.withQueue d.registers.config.queue (r.write v register) := by
      cases register with
      | queueSize => exact modifySelected_eq_withQueue selected _
      | queueAddress ring half => exact modifySelected_eq_withQueue selected _
      | _ => cases here
    have selected' : (d.carryOut v register).registers.selected? = some (r.write v register) := by
      rw [written]
      exact getElem?_withQueue_self selected _
    refine (ih selected' fun w member => only w (List.mem_cons_of_mem _ member)).trans ?_
    rw [written]
    exact withQueue_withQueue ..

theorem isProgramming_programming (wanted : Registers) (parts : List (RingAddress × Half)) :
    ∀ w ∈ wanted.programming parts, isProgramming w.1 = true := by
  intro w member
  simp only [Registers.programming, Registers.addressWrites, List.mem_cons, List.mem_map] at member
  rcases member with rfl | ⟨part, _, rfl⟩ <;> rfl

theorem bringUpQueue_done {d : Device} {index : UInt16} {r r' : Registers} {machine : Machine}
    (found : d.registers.queues[index.toNat]? = some r) (down : r.isUp = false)
    (early : d.isRunning = false)
    (done : d.machine.bringUp r index d.registers.maxQueueSize d.mayUseTables = .ok (r', machine)) :
    d.bringUpQueue index = { d.withQueue index r' with machine } := by
  rw [isRunning] at early
  rw [mayUseTables] at done
  simp only [bringUpQueue, found, down, early, done, Bool.false_eq_true, if_false]
  rfl

/-- The device with the selected queue up, as a new virtqueue that works on the rings of a layout.
-/
def withVirtqueue (d : Device) (r : Registers) (layout : Layout) : Device :=
  { d.withQueue d.registers.config.queue
      { r with ready := true, live := some d.machine.queues.length } with
    machine := { d.machine with
      queues := d.machine.queues ++
        [{ index := d.registers.config.queue, layout, indirect := d.mayUseTables }] } }

/-- What the registers held before makes no difference. -/
theorem withVirtqueue_withQueue (d : Device) (r r' : Registers) (layout : Layout) :
    (d.withQueue d.registers.config.queue r').withVirtqueue r layout = d.withVirtqueue r layout := by
  simp only [withVirtqueue, withQueue, List.set_set]
  rfl

/-- A queue comes up if its layout is accepted, its rings are there, and the driver is not late. -/
theorem makeReady_up {d : Device} {r : Registers} {layout : Layout}
    (selected : d.registers.selected? = some r) (down : r.isUp = false) (early : d.isRunning = false)
    (accepted : Layout.new r.size d.registers.maxQueueSize r.desc r.driver r.device = .ok layout)
    (backed : layout.requireBacked ⟨d.machine.ram, d.machine.dma, d.registers.config.queue⟩ = .ok ())
    {v : UInt32} (nonzero : v ≠ 0) : d.makeReady v = d.withVirtqueue r layout := by
  have marked := getElem?_withQueue_self selected r.markReady
  have done := Machine.bringUp_backed (r := r.markReady) d.mayUseTables down accepted backed
  have up := bringUpQueue_done (d := d.withQueue d.registers.config.queue r.markReady) marked down
    early done
  simp only [makeReady, nonzero, decide_false, selected, Option.isNone_some, Bool.or_self,
    Bool.false_eq_true, if_false]
  rw [modifySelected_eq_withQueue selected, up, withQueue_withQueue]
  rfl

theorem writeStatus_finish {d : Device} (agreed : d.registers.config.status = .agreed)
    (untold : d.delivered = false) :
    d.writeStatus 15 = (d.withConfig (d.registers.config.settle .running)).deliver := by
  have nonzero : (15 : UInt32) ≠ 0 := by decide
  have taken : (Status.ofBits? 15).bind d.registers.config.status.write? = some .running := by
    rw [agreed]
    decide
  simp only [writeStatus, if_neg nonzero]
  rw [State.writeStatus_taken nonzero taken, agreed]
  have untold' : (d.withConfig (d.registers.config.settle .running)).delivered = false := untold
  exact if_neg (Bool.eq_false_iff.mp untold')

/-! ### From a reset to a device that runs -/

/-- The negotiation at the end of the bring-up. -/
def settledConfig (s : State) (p : Plan) (window : UInt32) : State :=
  { s with
    status := .running
    accepted := p.features &&& s.offered
    acceptedWindow := window
    queue := p.queue }

theorem write_queueSelect (s : State) (queue : UInt16) :
    s.write queue.toUInt32 .queueSelect = { s with queue } := by
  have small : queue.toUInt32.toNat < 0x10000 := by
    rw [UInt16.toNat_toUInt32]
    exact queue.toNat_lt
  simp only [State.write, State.selectQueue, if_pos small, UInt16.toUInt16_toUInt32]

/-- All stages on end. A device that was reset is handed over with the queue of the plan. -/
theorem carryOutAll_bringUp {d : Device} (fresh : d.registers.config.status = .empty)
    (untold : d.delivered = false) {p : Plan}
    (blank : d.registers.queues[p.queue.toNat]? = some .blank) {layout : Layout}
    (accepted : Layout.new p.size d.registers.maxQueueSize p.desc p.driver p.device = .ok layout)
    (backed : layout.requireBacked ⟨d.machine.ram, d.machine.dma, p.queue⟩ = .ok ())
    {halves : List Half} (both : ∀ half, half ∈ halves) {parts : List (RingAddress × Half)}
    (all : ∀ ring half, (ring, half) ∈ parts) :
    ∃ window, d.carryOutAll (State.handshake p.features halves ++
        [(.queueSelect, p.queue.toUInt32)] ++ p.registers.programming parts ++
        [(.queueReady, 1), (.status, 15)]) =
      ((d.withConfig (settledConfig d.registers.config p window)).withVirtqueue
        p.registers layout).deliver := by
  obtain ⟨window, shaken⟩ := State.writeAll_handshake fresh p.features both
  refine ⟨window, ?_⟩
  -- The negotiation until the driver is done.
  let config : State := { settledConfig d.registers.config p window with status := .agreed }
  have greeted := d.carryOutAll_negotiation (isNegotiation_handshake p.features halves)
  have chosen : d.carryOutAll (State.handshake p.features halves ++
      [(.queueSelect, p.queue.toUInt32)]) = d.withConfig config := by
    rw [carryOutAll_append, greeted, shaken]
    exact congrArg d.withConfig (write_queueSelect _ _)
  have selected : (d.withConfig config).registers.selected? = some .blank := blank
  have programmed : (d.withConfig config).carryOutAll (p.registers.programming parts) =
      (d.withConfig config).withQueue p.queue p.registers := by
    rw [carryOutAll_programming selected (isProgramming_programming p.registers parts),
      Registers.writeAll_programming rfl rfl all]
    rfl
  have selected' : ((d.withConfig config).withQueue p.queue p.registers).registers.selected? =
      some p.registers :=
    getElem?_withQueue_self selected p.registers
  -- The features are settled but the driver is not done, so the queue is not late.
  have up : ((d.withConfig config).withQueue p.queue p.registers).makeReady 1 =
      (d.withConfig config).withVirtqueue p.registers layout := by
    rw [makeReady_up selected' rfl rfl accepted backed (by decide)]
    exact withVirtqueue_withQueue ..
  have done := writeStatus_finish (d := (d.withConfig config).withVirtqueue p.registers layout) rfl
    untold
  rw [carryOutAll_append, carryOutAll_append, chosen, programmed]
  exact (congrArg (writeStatus · 15) up).trans done

theorem isReadOnly_writes (p : Plan) (halves : List Half) (parts : List (RingAddress × Half)) :
    ∀ w ∈ p.writes halves parts, w.1.isReadOnly = false := by
  have negotiates (w : Register × UInt32) (only : isNegotiation w = true) :
      w.1.isReadOnly = false := by
    obtain ⟨r, v⟩ := w
    cases r <;> first | rfl | cases only
  have programs (r : Register) (only : isProgramming r = true) : r.isReadOnly = false := by
    cases r <;> first | rfl | cases only
  intro w member
  simp only [Plan.writes, List.mem_append, List.mem_cons, List.not_mem_nil, or_false] at member
  rcases member with (((rfl | shaken) | rfl) | programmed) | rfl | rfl
  · rfl
  · exact negotiates w (isNegotiation_handshake _ _ w shaken)
  · rfl
  · exact programs w.1 (isProgramming_programming _ _ w programmed)
  · rfl
  · rfl

/-- The device when the queue of a plan comes up: everything is back at power-on, and the
negotiation is over. -/
def restarted (d : Device) (p : Plan) (window : UInt32) : Device :=
  (d.powerOn.tellBackend d.backend.reset).withConfig
    (settledConfig d.registers.config.reset p window)

theorem queues_restarted (d : Device) (p : Plan) (window : UInt32) :
    (d.restarted p window).registers.queues =
      List.replicate d.registers.queues.length .blank := by
  show d.powerOn.registers.queues = _
  rw [powerOn_eq]
  exact List.map_const' ..

theorem backend_restarted (d : Device) (p : Plan) (window : UInt32) :
    (d.restarted p window).backend = d.backend := by
  show d.powerOn.backend = _
  rw [powerOn_eq]

theorem sessions_restarted (d : Device) (p : Plan) (window : UInt32) :
    (d.restarted p window).sessions.length = d.sessions.length := by
  show d.powerOn.sessions.length = _
  rw [powerOn_eq]
  exact d.endSession_eq.2

theorem told_restarted {d : Device} (listens : d.backend.isShutDown = false) (p : Plan)
    (window : UInt32) :
    (d.restarted p window).machine.told = d.machine.told ++ [.reset] := by
  show (d.powerOn.tellBackend d.backend.reset).machine.told = _
  rw [told_tellBackend, told_powerOn, Backend.Connection.reset, Backend.Connection.unlessShutDown,
    listens]
  rfl

/-- From any state on, a plan that is carried out ends with a device that is handed over. -/
theorem carryOutAll_writes {d : Device} {p : Plan} (known : p.queue.toNat < d.registers.queues.length)
    {layout : Layout}
    (accepted : Layout.new p.size d.registers.maxQueueSize p.desc p.driver p.device = .ok layout)
    (backed : layout.requireBacked ⟨d.machine.ram, d.machine.dma, p.queue⟩ = .ok ())
    {halves : List Half} (both : ∀ half, half ∈ halves) {parts : List (RingAddress × Half)}
    (all : ∀ ring half, (ring, half) ∈ parts) :
    ∃ window, d.carryOutAll (p.writes halves parts) =
      ((d.restarted p window).withVirtqueue p.registers layout).deliver := by
  -- Retiring the old virtqueues leaves memory and mappings, by which the rings are judged.
  obtain ⟨retired, same, _⟩ := Machine.foldl_retireLive_eq d.machine d.registers.queues
  have powered := d.powerOn_eq
  rw [same] at powered
  have blank : (d.powerOn.tellBackend d.backend.reset).registers.queues[p.queue.toNat]? =
      some .blank := by
    rw [powered]
    show (d.registers.queues.map fun _ => Registers.blank)[p.queue.toNat]? = _
    rw [List.getElem?_map, List.getElem?_eq_getElem known]
    rfl
  have accepted' : Layout.new p.size
      (d.powerOn.tellBackend d.backend.reset).registers.maxQueueSize p.desc p.driver p.device =
      .ok layout := by
    rw [powered]
    exact accepted
  obtain ⟨window, done⟩ := carryOutAll_bringUp (by rw [powered]; rfl) (by rw [powered]; rfl) blank
    accepted' (by rw [powered]; exact backed) both all
  have config : (d.powerOn.tellBackend d.backend.reset).registers.config =
      d.registers.config.reset := by
    rw [powered]
    rfl
  rw [config] at done
  refine ⟨window, ?_⟩
  rw [Plan.writes, List.append_assoc, List.append_assoc, List.append_assoc, carryOutAll_append,
    ← List.append_assoc, ← List.append_assoc]
  exact done

/-! ### What the driver finds -/

/-- The virtqueue that is brought up is live and starts at the beginning of its rings. -/
theorem liveQueue_withVirtqueue (d : Device) (r : Registers) (layout : Layout) :
    (d.withVirtqueue r layout).machine.liveQueue d.machine.queues.length =
      .ok { index := d.registers.config.queue, layout, indirect := d.mayUseTables } := by
  have found : (d.withVirtqueue r layout).machine.queues[d.machine.queues.length]? =
      some { index := d.registers.config.queue, layout, indirect := d.mayUseTables } :=
    List.getElem?_concat_length
  simp only [Machine.liveQueue, found, Bool.false_eq_true, if_false]

/-- If no other queue is up, none that is up has failed. -/
theorem status_withVirtqueue {d : Device} (down : ∀ r ∈ d.registers.queues, r.live = none)
    (r : Registers) (layout : Layout) :
    (d.withVirtqueue r layout).registers.status (d.withVirtqueue r layout).machine =
      d.registers.config.status := by
  have sound : ¬ (d.withVirtqueue r layout).HasFailed := by
    rintro ⟨r', member, number, q, live, found, failed⟩
    rcases List.mem_or_eq_of_mem_set member with old | rfl
    · rw [down r' old] at live
      cases live
    · cases live
      rw [Machine.liveQueue_eq_ok (d.liveQueue_withVirtqueue r layout)] at found
      cases found
      cases failed
  rw [RegisterFile.status, if_neg fun failed => sound ((anyFailed_iff _).mp failed)]
  rfl

/-- Handing a device over changes nothing that the driver can read. -/
theorem readRegister_deliver (d : Device) (r : Register) :
    d.deliver.registers.readRegister d.deliver.machine r =
      d.registers.readRegister d.machine r := by
  rw [deliver_eq]
  cases r <;> rfl

/-- The driver reads the whole status and a queue that is ready. -/
theorem reads_withVirtqueue {d : Device} {r : Registers} {layout : Layout}
    (settled : (d.withVirtqueue r layout).deliver.Settled)
    (down : ∀ r ∈ d.registers.queues, r.live = none)
    (running : d.registers.config.status = .running)
    (known : d.registers.config.queue.toNat < d.registers.queues.length) :
    ((d.withVirtqueue r layout).deliver.access .read Register.status.offset 4).2 = .ok 15 ∧
      ((d.withVirtqueue r layout).deliver.access .read Register.queueReady.offset 4).2 = .ok 1 := by
  have bits : Status.running.bits.toUInt64 = 15 := by decide
  have selected : (d.withVirtqueue r layout).registers.selected? =
      some { r with ready := true, live := some d.machine.queues.length } :=
    List.getElem?_set_self known
  constructor
  · rw [access_readRegister settled, readRegister_deliver]
    simp only [RegisterFile.readRegister, status_withVirtqueue down, running, bits]
  · rw [access_readRegister settled, readRegister_deliver]
    simp only [RegisterFile.readRegister, selected]
    rfl

/-- A backend that listens is told, and holds a session from then on. -/
theorem deliver_listening {d : Device} (listens : d.backend.isShutDown = false) :
    d.deliver.machine.told = d.machine.told ++ [d.handover] ∧
      d.deliver.session = some d.sessions.length ∧
      d.deliver.sessions[d.sessions.length]? = some d.nextSession := by
  refine ⟨?_, ?_, ?_⟩
  · rw [told_deliver, Backend.Connection.unlessShutDown, listens]
    rfl
  · rw [deliver_eq, listens]
    rfl
  · rw [deliver_eq, listens]
    exact List.getElem?_concat_length

/-- A driver can always recover. Whatever happened to a device that was not shut down, a driver that
resets it and follows the order of the bring-up gets a running device, with the features that both
sides want and with the queue it programmed, provided that the layout of the queue is accepted and
its rings are there. The order in which halves of features and addresses are written makes no
difference, nor whether an IOMMU is attached. The backend hears of one reset and one driver that is
done and of nothing else; it holds a session in which the queue, and no other, is a fresh virtqueue
with the programmed layout. -/
theorem driver_can_recover {profile : Profile} {options : Options} {ram : Memory.Ram}
    {d₀ d : Device} (built : Device.new profile options ram = .ok d₀) (actions : List Action)
    (reached : (d₀.run actions).1 = d) (listens : d.backend.isShutDown = false) {p : Plan}
    (known : p.queue.toNat < d.registers.queues.length) {layout : Layout}
    (accepted : Layout.new p.size d.registers.maxQueueSize p.desc p.driver p.device = .ok layout)
    (backed : layout.requireBacked ⟨d.machine.ram, d.machine.dma, p.queue⟩ = .ok ())
    {halves : List Half} (both : ∀ half, half ∈ halves) {parts : List (RingAddress × Half)}
    (all : ∀ ring half, (ring, half) ∈ parts) :
    ∃ (d' : Device) (s : Session) (number : Nat) (q : Virtqueue),
      d.run (registerWrites (p.writes halves parts)) =
        (d', (p.writes halves parts).map fun _ => .access (.ok 0)) ∧
      (d'.access .read Register.status.offset 4).2 = .ok 15 ∧
      (d'.access .read Register.queueReady.offset 4).2 = .ok 1 ∧
      d'.machine.told = d.machine.told ++ [.reset, .driverOk s.features s.queues] ∧
      d'.session = some d.sessions.length ∧ d'.sessions[d.sessions.length]? = some s ∧
      s.retired = false ∧ s.features = p.features &&& d.registers.config.offered ∧
      s.queues = (List.replicate d.registers.queues.length none).set p.queue.toNat (some number) ∧
      d'.machine.liveQueue number = .ok q ∧ q.index = p.queue ∧ q.layout = layout ∧
      q.chainsTaken = 0 ∧ q.chainsReturned = 0 := by
  have settled : d.Settled := reached ▸ settled_run (settled_new built) actions
  obtain ⟨window, done⟩ := carryOutAll_writes known accepted backed both all
  have ran := run_registerWrites settled (isReadOnly_writes p halves parts)
  have settled' := settled_run settled (registerWrites (p.writes halves parts))
  rw [ran, done] at settled'
  rw [done] at ran
  have queues := d.queues_restarted p window
  have count := d.sessions_restarted p window
  have told := told_restarted listens p window
  have listens' : (d.restarted p window).backend.isShutDown = false := by
    rw [backend_restarted, listens]
  have config : (d.restarted p window).registers.config =
    settledConfig d.registers.config.reset p window := rfl
  -- How the device came there is of no interest any more.
  generalize d.restarted p window = e at ran settled' queues count told listens' config
  have down : ∀ r ∈ e.registers.queues, r.live = none := by
    intro r member
    rw [queues] at member
    cases List.eq_of_mem_replicate member
    rfl
  have known' : e.registers.config.queue.toNat < e.registers.queues.length := by
    rw [config, queues, List.length_replicate]
    exact known
  obtain ⟨status, ready⟩ := reads_withVirtqueue settled' down (by rw [config]; rfl) known'
  obtain ⟨heard, held, listed⟩ :=
    deliver_listening (d := e.withVirtqueue p.registers layout) listens'
  rw [show (e.withVirtqueue p.registers layout).sessions.length = d.sessions.length from count]
    at held listed
  refine ⟨_, (e.withVirtqueue p.registers layout).nextSession, e.machine.queues.length,
    { index := p.queue, layout, indirect := e.mayUseTables }, ran, status, ready, ?_, held, listed,
    rfl, ?_, ?_, ?_, rfl, rfl, rfl, rfl⟩
  · rw [heard]
    show e.machine.told ++ _ = _
    rw [told, List.append_assoc]
    rfl
  · -- What was not offered is already gone from the accepted features.
    show e.registers.config.accepted &&& e.registers.config.offered = _
    rw [config]
    show (p.features &&& d.registers.config.offered) &&& d.registers.config.offered = _
    rw [UInt64.and_assoc, UInt64.and_self]
  · show (e.registers.queues.set e.registers.config.queue.toNat _).map (·.live) = _
    rw [config, queues, List.map_set, List.map_replicate]
    rfl
  · have live := e.liveQueue_withVirtqueue p.registers layout
    rw [config] at live
    rw [deliver_eq]
    exact live

/-! The queue of the console has failed while its device was running, the driver gave the device up
with the other queue half programmed, and interrupts are pending. Then it starts over with that
other queue, wants a feature that is not offered, and writes high halves first. -/

def consoleWreck : List Action :=
  consoleBroken ++ driverWrites [(0x30, 1), (0x38, 8), (0x84, 5), (0x70, 0x8f)]

def consolePlan : Plan where
  features := 0x300000000
  queue := 1
  size := 4
  desc := 0x1000
  driver := 0x1100
  device := 0x1200

def consoleParts : List (RingAddress × Half) :=
  [(.device, .high), (.device, .low), (.desc, .high), (.driver, .high), (.driver, .low), (.desc, .low)]

theorem consoleWreck_recovers :
    ∃ (d' : Device) (s : Session) (number : Nat) (q : Virtqueue),
      (consoleStart.run consoleWreck).1.run
          (registerWrites (consolePlan.writes [.high, .low] consoleParts)) =
        (d', (consolePlan.writes [.high, .low] consoleParts).map fun _ => .access (.ok 0)) ∧
      (d'.access .read Register.status.offset 4).2 = .ok 15 ∧
      s.features = 0x100000000 ∧ s.queues = [none, some number] ∧
      d'.sessions[1]? = some s ∧ d'.machine.liveQueue number = .ok q ∧
      q.layout = ⟨4, 0x1000, 0x1100, 0x1200⟩ := by
  have both (half : Half) : half ∈ [Half.high, Half.low] := by
    cases half <;> decide
  have all (ring : RingAddress) (half : Half) : (ring, half) ∈ consoleParts := by
    cases ring <;> cases half <;> decide
  have listens : (consoleStart.run consoleWreck).1.backend.isShutDown = false := by decide +kernel
  have two : (consoleStart.run consoleWreck).1.registers.queues.length = 2 := by decide +kernel
  have known : consolePlan.queue.toNat <
      (consoleStart.run consoleWreck).1.registers.queues.length := by
    rw [two]
    decide
  have accepted : Layout.new consolePlan.size
      (consoleStart.run consoleWreck).1.registers.maxQueueSize consolePlan.desc consolePlan.driver
      consolePlan.device = .ok ⟨4, 0x1000, 0x1100, 0x1200⟩ := by
    decide +kernel
  have backed : (⟨4, 0x1000, 0x1100, 0x1200⟩ : Layout).requireBacked
      ⟨(consoleStart.run consoleWreck).1.machine.ram, (consoleStart.run consoleWreck).1.machine.dma,
        consolePlan.queue⟩ = .ok () := by
    decide +kernel
  have offered : (consoleStart.run consoleWreck).1.registers.config.offered = 0x100000000 := by
    decide +kernel
  have one : (consoleStart.run consoleWreck).1.sessions.length = 1 := by decide +kernel
  obtain ⟨d', s, number, q, ran, status, _, _, _, listed, _, features, queues, live, _, layout, _⟩ :=
    driver_can_recover (Setup.new_of_build consoleStart_built) consoleWreck rfl listens known
      accepted backed both all
  rw [offered] at features
  rw [two] at queues
  rw [one] at listed
  exact ⟨d', s, number, q, ran, status, features.trans (by decide), queues, listed, live, layout⟩

end Device

end VirtioMmio
