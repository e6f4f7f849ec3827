import VirtioMmio.Proofs.Device.Sessions

/-!
What driver and device agree on, over whole runs. Main result: `negotiation_stands`. The status is
always one that the order of the bring-up allows, it loses nothing but by a reset, a failed device
stays as it is until then, and from the moment the features are settled nothing changes them any
more, so a session keeps the features it was begun with.
-/

namespace VirtioMmio

open Backend (Session)
open Transport (Register)

namespace Device

/-- A reset takes the negotiation back to its start. -/
theorem Happens.reset {d d' : Device} {action : Action} (happens : d.Happens action d')
    (reset : action.isReset = true) : d'.registers.config = d.registers.config.reset := by
  cases happens with
  | register value r =>
    obtain ⟨rfl, zero⟩ := (Action.isReset_write value r).mp reset
    rw [zero, config_carryOut]
    rfl
  | shutdown => cases reset
  | aside elsewhere going aside =>
    rw [Action.isReset, elsewhere] at reset
    cases reset

theorem reset_step {d : Device} (settled : d.Settled) {action : Action}
    (reset : action.isReset = true) :
    (d.step action).1.registers.config = d.registers.config.reset :=
  (step_happens settled action).reset reset

/-- A session that is not retired has the features that driver and device agree on, and keeps them
until the next reset. -/
theorem features_run {d : Device} (orderly : d.Orderly) {n : Nat} {s : Session}
    (found : d.sessions[n]? = some s) (live : s.retired = false) {later : List Action}
    (noReset : ∀ action ∈ later, action.isReset = false) :
    (d.run later).1.registers.config.negotiated = s.features := by
  have held := orderly.linked.held found live
  have settled := orderly.sound.featuresOk (orderly.linked.running n held)
  have stands := (advances_run orderly.toSettled noReset).negotiated settled
  exact stands.trans (orderly.linked.matching n s held found).2.symm

/-- The negotiation is always in order, and between two resets it only goes forward. What the device
offers never changes; settled features are among it and stand still until the next reset, and with
them the features of a session. -/
theorem negotiation_stands {profile : Profile} {options : Options} {ram : Memory.Ram}
    {d₀ d : Device} (built : Device.new profile options ram = .ok d₀) (actions : List Action)
    (reached : (d₀.run actions).1 = d) :
    ((d.registers.config.status.driver = true → d.registers.config.status.acknowledge = true) ∧
      (d.registers.config.status.featuresOk = true → d.registers.config.status.driver = true) ∧
      (d.registers.config.status.driverOk = true → d.registers.config.status.featuresOk = true) ∧
      d.registers.config.status.needsReset = false) ∧
      d.registers.config.offered = offeredFeatures options profile ∧
      (d.registers.config.status.featuresOk = true →
        d.registers.config.accepted &&& d.registers.config.offered = d.registers.config.accepted) ∧
      (∀ action, action.isReset = true →
        (d.step action).1.registers.config = d.registers.config.reset) ∧
      ∀ later, (∀ action ∈ later, action.isReset = false) →
        (d.run later).1.registers.config.status.includes d.registers.config.status = true ∧
        (d.registers.config.status.failed = true →
          (d.run later).1.registers.config.status = d.registers.config.status) ∧
        (d.registers.config.status.featuresOk = true →
          (d.run later).1.registers.config.accepted = d.registers.config.accepted ∧
          (d.run later).1.registers.config.negotiated = d.registers.config.negotiated) ∧
        ∀ (n : Nat) (s : Session), d.sessions[n]? = some s → s.retired = false →
          (d.run later).1.registers.config.negotiated = s.features := by
  have orderly : d.Orderly := reached ▸ orderly_run (orderly_new built) actions
  obtain ⟨driver, features, running⟩ :=
    (Config.Status.inOrder_iff d.registers.config.status).mp orderly.sound.ordered
  -- What is offered is among the parts that no action changes.
  have offered : d.registers.config.offered = offeredFeatures options profile := by
    have steady := d₀.steady_run (quiet_new built) actions
    rw [reached, new_eq_ok built] at steady
    exact congrArg (fun fixed => fixed.2.1.2.2.2.1) steady.fixed
  refine ⟨⟨driver, features, running, orderly.sound.driverOnly⟩, offered, orderly.sound.offered,
    fun action reset => reset_step orderly.toSettled reset, fun later noReset => ?_⟩
  have advances := advances_run orderly.toSettled noReset
  refine ⟨advances.includes, advances.stuck, fun settled => ?_, fun n s found live => ?_⟩
  · exact ⟨advances.settled settled, advances.negotiated settled⟩
  · exact features_run orderly found live noReset

/-! The driver of the console tries to take more features while its session is running, and then
gives the device up. After that only a reset helps. -/

def consoleMeddling : List Action :=
  [(0x24, 0), (0x20, 0xffffffff), (0x70, 143)].map fun (offset, value) =>
    .access (.write value) offset 4

def consoleRunning : Device :=
  (consoleStart.run (consoleActions.take 13)).1

def consoleFailed : Device :=
  (consoleStart.run (consoleActions.take 13 ++ consoleMeddling)).1

theorem consoleFailed_stands :
    (consoleRunning.run consoleMeddling).1.registers.config.negotiated = 0x100000000 ∧
      (consoleFailed.run [.access (.write 15) 0x70 4]).1.registers.config.status.bits = 143 ∧
      (consoleFailed.step (.access (.write 0) 0x70 4)).1.registers.config.status.bits = 0 := by
  have built := Setup.new_of_build consoleStart_built
  have session : consoleRunning.sessions[0]? = some ⟨0x100000000, [some 0, none], false⟩ := by
    decide +kernel
  have failed : consoleFailed.registers.config.status.failed = true := by decide +kernel
  have bits : consoleFailed.registers.config.status.bits = 143 := by decide +kernel
  have meddling : ∀ action ∈ consoleMeddling, action.isReset = false := by decide +kernel
  have wishing : ∀ action ∈ [Action.access (.write 15) 0x70 4], action.isReset = false := by
    decide +kernel
  have reset : (Action.access (.write 0) 0x70 4).isReset = true := by decide +kernel
  obtain ⟨_, _, _, _, running⟩ :=
    negotiation_stands built (consoleActions.take 13) rfl (d := consoleRunning)
  obtain ⟨_, _, _, back, given⟩ := negotiation_stands built
    (consoleActions.take 13 ++ consoleMeddling) rfl (d := consoleFailed)
  refine ⟨(running consoleMeddling meddling).2.2.2 0 _ session rfl, ?_, ?_⟩
  · rw [(given _ wishing).2.1 failed]
    exact bits
  · rw [back _ reset]
    rfl

end Device

end VirtioMmio
