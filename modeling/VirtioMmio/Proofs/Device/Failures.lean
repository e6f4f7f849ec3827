import VirtioMmio.Proofs.Device.Moves
import VirtioMmio.Proofs.Device.Queues
import VirtioMmio.Proofs.Device.Traceless
import VirtioMmio.Proofs.Machine.Failure

/-!
Failed queues. Main result: `failures_stop_queues`. A virtqueue that meets something it cannot work
with fails at once and for good, the driver is told, and until the driver resets the device its
status asks for that.
-/

namespace VirtioMmio

open Machine (Breaks)
open Queue (Virtqueue)
open Transport (Register)

namespace Config.Status

theorem needsReset_bits (s : Status) : s.bits &&& 64 ≠ 0 ↔ s.needsReset = true := by
  obtain ⟨a, b, c, d, e, f⟩ := s
  cases a <;> cases b <;> cases c <;> cases d <;> cases e <;> cases f <;> decide

end Config.Status

namespace Device

/-- Some queue that is up has failed. -/
def HasFailed (d : Device) : Prop :=
  ∃ r ∈ d.registers.queues, ∃ number q, r.live = some number ∧
    d.machine.queues[number]? = some q ∧ q.failed = true

theorem anyFailed_iff (d : Device) :
    d.registers.anyFailed d.machine = true ↔ d.HasFailed := by
  simp only [Transport.RegisterFile.anyFailed, List.any_eq_true, HasFailed]
  refine exists_congr fun r => and_congr_right fun _ => ?_
  cases r.live with
  | none => simp
  | some number =>
    simp only [Option.bind_some, Option.some.injEq, exists_and_left, exists_eq_left']
    cases d.machine.queues[number]? <;> simp

/-- The driver reads from the status whether a queue has failed. -/
theorem status_read {d : Device} (regular : d.Regular) :
    ∃ v, d.access .read Register.status.offset 4 = (d, .ok v) ∧ (v &&& 64 ≠ 0 ↔ d.HasFailed) := by
  refine ⟨_, access_readRegister regular.toSettled .status, ?_⟩
  -- The register is read as a wider number.
  have bit (v : UInt32) : v.toUInt64 &&& 64 ≠ 0 ↔ v &&& 64 ≠ 0 := by
    refine not_congr ?_
    rw [← UInt64.toNat_inj, ← UInt32.toNat_inj, UInt64.toNat_and, UInt32.toNat_and,
      UInt32.toNat_toUInt64]
    rfl
  rw [bit, Config.Status.needsReset_bits, ← anyFailed_iff, Transport.RegisterFile.status]
  split
  next failed => exact iff_of_true rfl failed
  next sound =>
    -- The stored status never holds the bit.
    rw [regular.sound.driverOnly]
    exact iff_of_false Bool.false_ne_true sound

/-- Virtqueues never go away, and one that failed stays failed. -/
theorem failed_step {d : Device} (settled : d.Settled) {number : Nat} {q : Virtqueue}
    (found : d.machine.queues[number]? = some q) (failed : q.failed = true) (action : Action) :
    ∃ q', (d.step action).1.machine.queues[number]? = some q' ∧ q'.failed = true := by
  cases about : action.isDealing with
  | false => exact (step_moves settled about).failed found failed
  | true =>
    -- No virtqueue has a part in what is agreed with an IOMMU.
    obtain ⟨calls, dma, same, _⟩ := deals_step d about
    rw [same]
    exact ⟨q, found, failed⟩

theorem failed_run {d : Device} (settled : d.Settled) {number : Nat} {q : Virtqueue}
    (found : d.machine.queues[number]? = some q) (failed : q.failed = true)
    (actions : List Action) :
    ∃ q', (d.run actions).1.machine.queues[number]? = some q' ∧ q'.failed = true := by
  induction actions generalizing d q with
  | nil => exact ⟨q, found, failed⟩
  | cons action later ih =>
    obtain ⟨q', found', failed'⟩ := failed_step settled found failed action
    exact ih (settled_step settled action) found' failed'

/-- Without a reset the registers of a queue that is up stand, so its failure shows for as long. -/
theorem hasFailed_run {d : Device} (established : d.Established) (failed : d.HasFailed)
    {actions : List Action} (noReset : ∀ action ∈ actions, action.isReset = false) :
    (d.run actions).1.HasFailed := by
  obtain ⟨r, member, number, q, live, found, failed⟩ := failed
  obtain ⟨i, place⟩ := List.getElem?_of_mem member
  have up : r.isUp = true := by rw [Queue.Registers.isUp, live, Option.isSome_some]
  have still := (stands_run established noReset).registers i r place up
  obtain ⟨q', found', failed'⟩ := failed_run established.toSettled found failed actions
  exact ⟨r, List.mem_of_getElem? still, number, q', live, found', failed'⟩

theorem not_hasFailed_reset {d : Device} (settled : d.Settled) {action : Action}
    (reset : action.isReset = true) : ¬ (d.step action).1.HasFailed := by
  have happens := step_happens settled action
  generalize (d.step action).1 = d' at happens ⊢
  rintro ⟨r, member, number, q, live, _⟩
  cases happens with
  | register value r' =>
    obtain ⟨rfl, zero⟩ := (Action.isReset_write value r').mp reset
    -- After a reset no queue is up.
    obtain ⟨queues, _⟩ := writeStatus_blank (d := d) zero
    have blank : r ∈ d.registers.queues.map fun _ => Queue.Registers.blank := queues ▸ member
    obtain ⟨_, _, rfl⟩ := List.mem_map.mp blank
    cases live
  | shutdown => cases reset
  | aside elsewhere going aside =>
    rw [Action.isReset, elsewhere .status] at reset
    cases reset

/-- A live virtqueue that refuses a request fails by it: its positions stand, and the driver is told
by an interrupt for a change of the configuration. The only exception is a chain returned by a head
that is none, which changes nothing. A virtqueue that failed stays so, and until it is retired it
answers every request with that and does nothing. In every state that a device can reach its status
asks for a reset if and only if a queue that is up has failed, and only a reset ends that. -/
theorem failures_stop_queues {profile : Profile} {options : Options} {ram : Memory.Ram}
    {d₀ d : Device} (built : Device.new profile options ram = .ok d₀) (actions : List Action)
    (reached : (d₀.run actions).1 = d) :
    (∀ (m : Machine) number q, m.liveQueue number = .ok q →
        (∀ head len, q.layout.size ≤ head → m.perform number (.give head len) =
          (m, .done (.error (.descriptorIndex head q.layout.size)))) ∧
        ∀ request e, ¬ request.IsStray q → (m.perform number request).2.error? = some e →
          Breaks m number q (m.perform number request).1) ∧
      (∀ number q, d.machine.queues[number]? = some q → q.failed = true → ∀ later,
        ∃ q', (d.run later).1.machine.queues[number]? = some q' ∧ q'.failed = true ∧
          (q'.retired = false → ∀ request,
            ((d.run later).1.machine.perform number request).1 = (d.run later).1.machine ∧
            (request ≠ .wants →
              ((d.run later).1.machine.perform number request).2.error? = some .failed))) ∧
      (∃ v, d.access .read Register.status.offset 4 = (d, .ok v) ∧
        (v &&& 64 ≠ 0 ↔ d.HasFailed)) ∧
      (d.HasFailed → ∀ later, (∀ action ∈ later, action.isReset = false) →
        (d.run later).1.HasFailed) ∧
      ∀ action, action.isReset = true → ¬ (d.step action).1.HasFailed := by
  have established : d.Established := reached ▸ established_run (established_new built) actions
  have settled := established.toSettled
  refine ⟨?_, ?_, status_read established.toRegular, ?_, fun _ => not_hasFailed_reset settled⟩
  · intro m number q live
    exact ⟨fun _ len outside => Machine.perform_stray live outside len,
      fun _ _ good refused => Machine.perform_refused live good refused⟩
  · intro number q found failed later
    obtain ⟨q', found', failed'⟩ := failed_run settled found failed later
    exact ⟨q', found', failed', fun kept => Machine.perform_failed found' failed' kept⟩
  · exact fun failed _ => hasFailed_run established failed

/-! The driver of the console makes more chains available than its queue has entries. The backend
looks for the next one, which fails the queue, and it stays failed although the driver changes its
mind. -/

def consoleQueue : Virtqueue where
  index := 0
  layout := ⟨4, 0x1000, 0x1100, 0x1200⟩
  indirect := false

def consoleOverrun : List Action :=
  consoleActions.take 13 ++ [.poke 0x1102 [9, 0]]

def consoleBroken : List Action :=
  consoleOverrun ++ [.request 0 .take]

theorem consoleBroken_stops :
    Breaks (consoleStart.run consoleOverrun).1.machine 0 consoleQueue
        ((consoleStart.run consoleOverrun).1.machine.perform 0 .take).1 ∧
      (∃ q, ((consoleStart.run consoleBroken).1.run [.poke 0x1102 [0, 0]]).1.machine.queues[0]? =
        some q ∧ q.failed = true) ∧
      (∃ v, (consoleStart.run consoleBroken).1.access .read Register.status.offset 4 =
        ((consoleStart.run consoleBroken).1, .ok v) ∧ v &&& 64 ≠ 0) ∧
      ((consoleStart.run consoleBroken).1.run [.poke 0x1102 [0, 0]]).1.HasFailed ∧
      ¬ ((consoleStart.run consoleBroken).1.step (.access (.write 0) 0x70 4)).1.HasFailed := by
  have live : (consoleStart.run consoleOverrun).1.machine.liveQueue 0 = .ok consoleQueue := by
    decide +kernel
  have refused : ((consoleStart.run consoleOverrun).1.machine.perform 0 .take).2.error? =
      some (.availOverrun 9) := by
    decide +kernel
  have failed : (consoleStart.run consoleBroken).1.machine.queues[0]? =
      some { consoleQueue with failed := true } := by
    decide +kernel
  have shows : (consoleStart.run consoleBroken).1.HasFailed :=
    (anyFailed_iff _).mp (by decide +kernel)
  obtain ⟨each, stays, ⟨v, read, asks⟩, lasts, ends⟩ :=
    failures_stop_queues (Setup.new_of_build consoleStart_built) consoleBroken rfl
  obtain ⟨q, found, broken, _⟩ := stays 0 _ failed rfl [.poke 0x1102 [0, 0]]
  exact ⟨(each _ 0 _ live).2 .take _ id refused, ⟨q, found, broken⟩, ⟨v, read, asks.mpr shows⟩,
    lasts shows _ (by decide), ends _ (by decide +kernel)⟩

end Device

end VirtioMmio
