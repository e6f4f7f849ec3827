import VirtioMmio.Proofs.Device.Effects

/-!
How far driver and device have come. Main results: `sound_step` and `advances_step`, by which every
action keeps the order of the bring-up and none but a reset takes anything of it back, and
`prompt_step`: the device counts as handed over exactly if the status says that the driver is done.
-/

namespace VirtioMmio

open Backend (BackendCall Session)
open Config (State)
open Queue (Registers)
open Transport (Register RegisterFile)

theorem Machine.record_nil (m : Machine) : m.record [] = m := by
  rw [record, List.append_nil]

namespace Device

/-! ### Handing over and taking down -/

/-- The session that starts if the device is handed to the backend as it is. -/
def nextSession (d : Device) : Session :=
  { features := d.registers.config.negotiated, queues := d.registers.queues.map (·.live) }

/-- The announcement of the driver's set-up: the agreed features and the queues that are up. -/
def handover (d : Device) : BackendCall :=
  .driverOk d.nextSession.features d.nextSession.queues

/-- The device is handed over in full: a backend that was shut down is not told and gets no
session. -/
theorem deliver_eq (d : Device) :
    d.deliver = { d with
      machine := d.machine.record ((d.backend.unlessShutDown d.handover).map .backend)
      delivered := true
      session := if d.backend.isShutDown then d.session else some d.sessions.length
      sessions := if d.backend.isShutDown then d.sessions else d.sessions ++ [d.nextSession] } := by
  unfold deliver Backend.Connection.unlessShutDown
  dsimp only
  cases d.backend.isShutDown with
  | true =>
    -- Nothing is recorded, and of the device only the delivered flag changes.
    simp only [if_true, List.map_nil, Machine.record_nil]
  | false => rfl

/-- A shutdown in full: the session ends, the virtqueues that are up are retired, and the backend
hears of it the first time. -/
theorem shutdown_eq (d : Device) :
    d.shutdown = { d with
      machine := (d.registers.queues.foldl Machine.retireLive d.machine).record
        (d.backend.shutdown.2.map .backend)
      backend := ⟨true⟩
      session := none
      sessions := d.endSession.sessions } := by
  have ended := d.endSession_eq.1
  unfold shutdown
  dsimp only
  generalize d.endSession = e at ended ⊢
  rw [ended]
  rfl

/-! ### What writes leave alone -/

/-- Bringing a queue up, or failing to, concerns queues only. -/
theorem makeReady_eq (d : Device) (v : UInt32) :
    ∃ queues virtqueues, d.makeReady v =
      { d with registers.queues := queues, machine.queues := virtqueues } := by
  simp only [makeReady]
  split
  · exact ⟨_, _, rfl⟩
  · have up := ({ d with registers := d.registers.modifySelected .markReady } : Device).bringsUp
      d.registers.config.queue
    generalize Device.bringUpQueue _ d.registers.config.queue = d' at up ⊢
    cases up <;> exact ⟨_, _, rfl⟩

/-- A doorbell is news for the backend at most. -/
theorem ring_eq (d : Device) (v : UInt32) : ∃ calls, d.ring v = d.tellBackend calls := by
  have silent : d = d.tellBackend [] := by
    simp only [tellBackend, modifyMachine, List.map_nil, Machine.record_nil]
  simp only [ring, notify]
  split
  · split
    · exact ⟨_, rfl⟩
    · exact ⟨[], silent⟩
  · exact ⟨[], silent⟩

/-! ### The negotiation after a write -/

theorem config_makeReady (d : Device) (v : UInt32) :
    (d.makeReady v).registers.config = d.registers.config := by
  obtain ⟨queues, virtqueues, same⟩ := d.makeReady_eq v
  rw [same]

theorem registers_ring (d : Device) (v : UInt32) : (d.ring v).registers = d.registers := by
  obtain ⟨calls, same⟩ := d.ring_eq v
  rw [same]
  rfl

theorem registers_acknowledge (d : Device) (v : UInt32) :
    (d.acknowledge v).registers = d.registers := by
  simp only [acknowledge]
  split <;> rfl

theorem config_writeStatus (d : Device) (v : UInt32) :
    (d.writeStatus v).registers.config = (d.registers.config.writeStatus v).2 := by
  by_cases zero : v = 0
  · simp only [writeStatus, zero, if_true, State.writeStatus_zero]
    rw [powerOn_eq]
    rfl
  · simp only [writeStatus, zero, if_false]
    generalize d.registers.config.writeStatus v = written
    obtain ⟨outcome, config⟩ := written
    dsimp only
    split
    · split
      · rfl
      · rw [deliver_eq]
        rfl
    · rfl

/-- A register write does to the negotiation what the register stands for, and nothing else. -/
theorem config_carryOut (d : Device) (v : UInt32) (r : Register) :
    (d.carryOut v r).registers.config = d.registers.config.write v r := by
  cases r with
  | queueReady => exact config_makeReady d v
  | queueNotify => exact congrArg RegisterFile.config (registers_ring d v)
  | interruptAcknowledge => exact congrArg RegisterFile.config (registers_acknowledge d v)
  | status => exact config_writeStatus d v
  | _ => rfl

/-! ### Sessions and virtqueues after a write -/

/-- Programming a queue does not bring it up. -/
theorem undisturbed_modifySelected (d : Device) {f : Registers → Registers}
    (blind : ∀ r, (f r).live = r.live) :
    Undisturbed d { d with registers := d.registers.modifySelected f } :=
  ⟨⟨rfl, rfl, rfl, rfl⟩, Machine.map_modify blind _ _, rfl⟩

theorem undisturbed_ring (d : Device) (v : UInt32) : Undisturbed d (d.ring v) := by
  obtain ⟨calls, same⟩ := d.ring_eq v
  rw [same]
  exact ⟨⟨rfl, rfl, rfl, rfl⟩, rfl, rfl⟩

theorem live_writeSize (r : Registers) (v : UInt32) : (r.writeSize v).live = r.live := by
  simp only [Registers.writeSize]
  split <;> rfl

theorem live_writeAddr (r : Registers) (ring : Queue.RingAddress) (half : Queue.Half) (v : UInt32) :
    (r.writeAddr ring half v).live = r.live := by
  simp only [Registers.writeAddr]
  split
  · rfl
  · cases ring <;> rfl

/-- Two registers only have a say in sessions and virtqueues. -/
theorem undisturbed_carryOut (d : Device) (v : UInt32) {r : Register} (status : r ≠ .status)
    (ready : r ≠ .queueReady) : Undisturbed d (d.carryOut v r) := by
  cases r with
  | status => exact absurd rfl status
  | queueReady => exact absurd rfl ready
  | queueNotify => exact undisturbed_ring d v
  | interruptAcknowledge =>
    simp only [carryOut, acknowledge]
    split
    · exact .refl d
    · exact (aside_clearLine d _).toUndisturbed
  | queueSize => exact undisturbed_modifySelected d fun r => live_writeSize r v
  | queueAddress ring half => exact undisturbed_modifySelected d fun r => live_writeAddr r ring half v
  | _ => exact ⟨⟨rfl, rfl, rfl, rfl⟩, rfl, rfl⟩

/-- Only the status register has a say in sessions. -/
theorem sameSession_carryOut (d : Device) (v : UInt32) {r : Register} (status : r ≠ .status) :
    SameSession d (d.carryOut v r) := by
  by_cases ready : r = .queueReady
  · rw [ready]
    obtain ⟨queues, virtqueues, same⟩ := d.makeReady_eq v
    rw [carryOut, same]
    exact ⟨rfl, rfl, rfl, rfl⟩
  · exact (undisturbed_carryOut d v status ready).toSameSession

theorem backend_writeStatus (d : Device) (v : UInt32) : (d.writeStatus v).backend = d.backend := by
  have written := d.statusWritten v
  generalize d.writeStatus v = d' at written ⊢
  cases written with
  | reset zero =>
    rw [powerOn_eq]
    rfl
  | rejected nonzero => rfl
  | moved nonzero follows still => rfl
  | started nonzero follows running before untold =>
    rw [deliver_eq]
    rfl

/-! ### Order and direction -/

namespace Happens

variable {d d' : Device} {action : Action}

theorem sound (happens : d.Happens action d') (sound : d.registers.config.Sound) :
    d'.registers.config.Sound := by
  cases happens with
  | register value r =>
    rw [config_carryOut]
    exact State.sound_write sound _ r
  | shutdown =>
    rw [shutdown_eq]
    exact sound
  | aside elsewhere going aside =>
    obtain ⟨block, registers⟩ := aside.registers
    rw [registers]
    exact ⟨sound.ordered, sound.driverOnly, sound.offered⟩

theorem advances (happens : d.Happens action d') (noReset : action.isReset = false) :
    State.Advances d.registers.config d'.registers.config := by
  cases happens with
  | register value r =>
    rw [config_carryOut]
    exact State.advances_write _ _ r (Action.ne_zero_of_write noReset)
  | shutdown =>
    rw [shutdown_eq]
    exact .refl _
  | aside elsewhere going aside =>
    obtain ⟨block, registers⟩ := aside.registers
    rw [registers]
    exact .of_same rfl rfl rfl

theorem isShutDown (happens : d.Happens action d') :
    d'.backend.isShutDown = (d.backend.isShutDown || action.isShutdown) := by
  cases happens with
  | register value r =>
    have going : (Action.access (.write value) r.offset 4).isShutdown = false := rfl
    rw [going, Bool.or_false]
    by_cases status : r = .status
    · rw [status]
      exact congrArg Backend.Connection.isShutDown (backend_writeStatus d _)
    · rw [(sameSession_carryOut d _ status).backend]
  | shutdown =>
    rw [shutdown_eq]
    exact (Bool.or_true _).symm
  | aside elsewhere going aside =>
    rw [Action.isShutdown_eq_false going, Bool.or_false, aside.backend]

end Happens

theorem sound_step {d : Device} (settled : d.Settled) (sound : d.registers.config.Sound)
    (action : Action) : (d.step action).1.registers.config.Sound :=
  (step_happens settled action).sound sound

theorem advances_step {d : Device} (settled : d.Settled) {action : Action}
    (noReset : action.isReset = false) :
    State.Advances d.registers.config (d.step action).1.registers.config :=
  (step_happens settled action).advances noReset

theorem advances_run {d : Device} (settled : d.Settled) {actions : List Action}
    (noReset : ∀ action ∈ actions, action.isReset = false) :
    State.Advances d.registers.config (d.run actions).1.registers.config := by
  induction actions generalizing d with
  | nil => exact .refl _
  | cons action later ih =>
    have first := advances_step settled (noReset action List.mem_cons_self)
    exact first.trans (ih (settled_step settled action)
      fun action member => noReset action (List.mem_cons_of_mem _ member))

/-! ### The backend -/

theorem isShutDown_step {d : Device} (settled : d.Settled) (action : Action) :
    (d.step action).1.backend.isShutDown = (d.backend.isShutDown || action.isShutdown) :=
  (step_happens settled action).isShutDown

theorem isShutDown_run {d : Device} (settled : d.Settled) (actions : List Action) :
    (d.run actions).1.backend.isShutDown =
      (d.backend.isShutDown || actions.any Action.isShutdown) := by
  induction actions generalizing d with
  | nil => exact (Bool.or_false _).symm
  | cons action later ih =>
    rw [List.any_cons, ← Bool.or_assoc, ← isShutDown_step settled]
    exact ih (settled_step settled action)

/-! ### Promptness -/

/-- The device was handed to the backend as soon as the driver was done, and at no other time. -/
def Prompt (d : Device) : Prop :=
  d.delivered = d.isRunning

theorem prompt_writeStatus {d : Device} (prompt : d.Prompt) (v : UInt32) :
    (d.writeStatus v).Prompt := by
  have written := d.statusWritten v
  generalize d.writeStatus v = d' at written ⊢
  cases written with
  | reset zero =>
    rw [powerOn_eq]
    rfl
  | rejected nonzero => exact prompt
  | moved nonzero follows still => exact prompt.trans (still prompt).symm
  | started nonzero follows running before untold =>
    rw [deliver_eq]
    exact running.symm

theorem Happens.prompt {d d' : Device} {action : Action} (happens : d.Happens action d')
    (prompt : d.Prompt) : d'.Prompt := by
  cases happens with
  | register value r =>
    by_cases status : r = .status
    · rw [status]
      exact prompt_writeStatus prompt _
    · rw [Prompt, (sameSession_carryOut d _ status).delivered, isRunning, config_carryOut,
        State.status_write _ _ status]
      exact prompt
  | shutdown =>
    rw [shutdown_eq]
    exact prompt
  | aside elsewhere going aside =>
    obtain ⟨block, registers⟩ := aside.registers
    rw [Prompt, aside.delivered, isRunning, registers]
    exact prompt

theorem prompt_step {d : Device} (settled : d.Settled) (prompt : d.Prompt) (action : Action) :
    (d.step action).1.Prompt :=
  (step_happens settled action).prompt prompt

/-- What holds of every device that can be reached, as far as the driver can tell. -/
structure Regular (d : Device) : Prop extends Settled d where
  sound : d.registers.config.Sound
  prompt : d.Prompt

theorem regular_new {profile : Profile} {options : Options} {ram : Memory.Ram} {d : Device}
    (built : Device.new profile options ram = .ok d) : d.Regular := by
  have settled := settled_new built
  rw [new_eq_ok built] at settled ⊢
  exact ⟨settled, State.sound_new _ _ _, rfl⟩

theorem regular_step {d : Device} (regular : d.Regular) (action : Action) :
    (d.step action).1.Regular where
  toSettled := settled_step regular.toSettled action
  sound := sound_step regular.toSettled regular.sound action
  prompt := prompt_step regular.toSettled regular.prompt action

theorem regular_run {d : Device} (regular : d.Regular) (actions : List Action) :
    (d.run actions).1.Regular :=
  run_keeps (P := Regular) (fun _ action now => regular_step now action) actions regular

end Device

end VirtioMmio
