import VirtioMmio.Proofs.Device.Past

/-!
A reset by the driver is a power-on. `write_zero` says what a write of zero to the status register
leaves behind. Main result: `reset_is_power_on`. After any run this is a device at power-on, but for
what a reset carries over, with everything before as its past; by `run_after` nobody can tell.
-/

namespace VirtioMmio

open Backend (Session)
open Queue (Registers)
open Transport (RegisterFile)

/-! ### Retiring queues -/

namespace Machine

theorem retireLive_eq (m : Machine) (r : Registers) :
    ∃ queues, m.retireLive r = { m with queues } ∧ queues.length = m.queues.length := by
  simp only [retireLive]
  split
  · exact ⟨_, rfl, rfl⟩
  · exact ⟨_, rfl, List.length_modify ..⟩

/-- Retiring queues changes the queues only, and keeps their numbers. -/
theorem foldl_retireLive_eq (m : Machine) (registers : List Registers) :
    ∃ queues, registers.foldl retireLive m = { m with queues } ∧
      queues.length = m.queues.length := by
  induction registers generalizing m with
  | nil => exact ⟨_, rfl, rfl⟩
  | cons r registers ih =>
    obtain ⟨queues, retired, count⟩ := m.retireLive_eq r
    obtain ⟨others, later, still⟩ := ih { m with queues }
    rw [List.foldl_cons, retired, later]
    exact ⟨others, rfl, still.trans count⟩

theorem foldl_retireLive_blank (m : Machine) (queues : List Registers) :
    (queues.map fun _ => Registers.blank).foldl retireLive m = m := by
  induction queues with
  | nil => rfl
  | cons r queues ih => exact ih

end Machine

namespace Device

/-! ### The write -/

theorem write_status (t : RegisterFile) (m : Machine) (value : UInt64) :
    t.write m 0x70 4 value = .ok (t.writeStatus m value.toUInt32) := by
  have width : RegisterFile.checkWidth 0x70 4 = .ok () := rfl
  have low : ¬ Transport.configSpace ≤ 0x70 := by decide
  have register : Transport.Register.ofOffset? 0x70 = some .status := by decide
  simp only [RegisterFile.write]
  rw [width]
  dsimp only
  rw [if_neg low, register]
  rfl

theorem endSession_eq (d : Device) :
    d.endSession = { d with session := none, sessions := d.endSession.sessions } ∧
      d.endSession.sessions.length = d.sessions.length := by
  simp only [endSession]
  split
  next none =>
    refine ⟨?_, rfl⟩
    rw [← none]
  · exact ⟨rfl, List.length_modify ..⟩

theorem powerOn_eq (d : Device) :
    d.powerOn = { d with
      registers := { d.registers with
        config := d.registers.config.reset
        queues := d.registers.queues.map fun _ => .blank }
      machine := (d.registers.queues.foldl Machine.retireLive d.machine).lowerLine
      delivered := false
      session := none
      sessions := d.endSession.sessions } := by
  have ended := d.endSession_eq.1
  simp only [powerOn]
  generalize d.endSession = e at ended ⊢
  rw [ended]
  rfl

/-- The event pass after a write of zero: everything is reset once more, and the backend is told. -/
theorem settle_reset (d : Device) (notes : d.registers.events = Transport.Events.none.noteStatus)
    (empty : d.registers.config.status.isEmpty = true) :
    d.settle =
      ({ d with registers.events := .none } : Device).powerOn.tellBackend d.backend.reset := by
  rw [settle_eq, notes]
  have followed : followStatus { d with registers.events := .none } =
      ({ d with registers.events := .none } : Device).powerOn.tellBackend d.backend.reset := by
    unfold followStatus
    rw [if_pos empty]
    dsimp only
    rw [powerOn_eq]
  exact followed

/-- A write of zero to the status register, in full. -/
theorem write_zero (d : Device) (quiet : d.registers.events = .none) {value : UInt64}
    (zero : value.toUInt32 = 0) :
    d.write 0x70 value 4 =
      ({ d with
        registers := { d.registers with
          config := d.registers.config.reset
          queues := d.registers.queues.map fun _ => .blank }
        machine := (d.registers.queues.foldl Machine.retireLive d.machine).lowerLine.record
          (d.backend.reset.map .backend)
        delivered := false
        session := none
        sessions := d.endSession.sessions }, .ok ()) := by
  have written : d.registers.write d.machine 0x70 4 value =
      .ok ({ d.registers with
          config := d.registers.config.reset
          queues := d.registers.queues.map fun _ => .blank
          events := Transport.Events.none.noteStatus },
        d.registers.queues.foldl Machine.retireLive d.machine) := by
    rw [write_status, zero, ← quiet]
    rfl
  unfold Device.write Device.access
  dsimp only
  rw [written]
  dsimp only
  -- The event pass resets a second time, which finds nothing left to retire.
  rw [settle_reset _ rfl rfl, powerOn_eq]
  have twice : (d.registers.queues.map fun _ => Registers.blank).map (fun _ => Registers.blank) =
      d.registers.queues.map fun _ => .blank := by
    rw [List.map_map]
    rfl
  have sessions (registers : RegisterFile) (machine : Machine) :
      ({ d with registers, machine } : Device).endSession.sessions = d.endSession.sessions := by
    simp only [endSession]
    cases d.session <;> rfl
  dsimp only
  rw [twice, Machine.foldl_retireLive_blank, sessions, ← quiet]
  rfl

/-- A device at power-on with what a reset carries over from another one. -/
def carrying (fresh d : Device) : Device :=
  { fresh with
    registers.config.block.bytes := d.registers.config.block.bytes
    registers.config.block.generation := d.registers.config.block.generation
    machine.ram := d.machine.ram
    machine.dma := d.machine.dma
    backend := d.backend }

theorem registers_reset {t : RegisterFile} {id : DeviceId} {limit : UInt16} {count : Nat}
    {offered : UInt64} {bytes : List UInt8} {writable : List Config.Span}
    (same : t.fixed = (RegisterFile.new id limit count (.new offered bytes writable)).fixed)
    (quiet : t.events = .none) :
    { t with config := t.config.reset, queues := t.queues.map fun _ => .blank } =
      { RegisterFile.new id limit count (.new offered bytes writable) with
        config.block.bytes := t.config.block.bytes
        config.block.generation := t.config.block.generation } := by
  obtain ⟨id', limit', config, queues, events⟩ := t
  obtain ⟨offered', accepted, high, low, status, queue, block⟩ := config
  obtain ⟨bytes', writable', generation⟩ := block
  simp only [RegisterFile.fixed, RegisterFile.new, Config.State.new, List.length_replicate,
    Prod.mk.injEq] at same
  obtain ⟨rfl, rfl, rfl, rfl, rfl⟩ := same
  cases quiet
  simp only [RegisterFile.new, Config.State.new, Config.State.reset, List.map_const']
  rfl

theorem pending_lowerLine (m : Machine) : m.lowerLine.line = ⟨m.line.intid, .nothing⟩ := by
  have none : m.line.pending.without .all = .nothing := by
    obtain ⟨ring, config⟩ := m.line.pending
    cases ring <;> cases config <;> rfl
  exact congrArg (Interrupt.Line.mk m.line.intid) none

/-- What a reset puts behind a device: everything that was ever numbered or recorded, the calls of
the reset included. -/
def past (d : Device) : Past where
  queues := (d.registers.queues.foldl Machine.retireLive d.machine).queues
  sessions := d.endSession.sessions
  calls := ((d.registers.queues.foldl Machine.retireLive d.machine).lowerLine.record
    (d.backend.reset.map .backend)).calls

/-- No queue is up after a reset, so no register holds a number that a past could raise. -/
theorem registers_carrying_after {profile : Profile} {options : Options} {ram : Memory.Ram}
    {fresh : Device} (built : Device.new profile options ram = .ok fresh) (d : Device) (p : Past) :
    (fresh.carrying d).registers.after p = (fresh.carrying d).registers := by
  rw [new_eq_ok built]
  simp [carrying, RegisterFile.after, RegisterFile.new, Past.registers_blank]

theorem machine_reset (fresh d : Device) (blank : fresh.machine.line.pending = .nothing)
    (queues : fresh.machine.queues = []) (calls : fresh.machine.calls = [])
    (intid : d.machine.line.intid = fresh.machine.line.intid) :
    (d.registers.queues.foldl Machine.retireLive d.machine).lowerLine.record
      (d.backend.reset.map .backend) = (fresh.carrying d).machine.after d.past := by
  obtain ⟨retired, same, _⟩ := Machine.foldl_retireLive_eq d.machine d.registers.queues
  have line : ({ d.machine with queues := retired } : Machine).lowerLine.line =
      fresh.machine.line := by
    rw [pending_lowerLine, intid, ← blank]
  simp only [Machine.after, carrying, past, same, queues, calls, List.map_nil, List.append_nil]
  rw [← line]
  rfl

/-- A write of zero leaves a device at power-on behind, but for what is carried over and the past.
-/
theorem write_zero_eq_after {profile : Profile} {options : Options} {ram : Memory.Ram}
    {fresh d : Device} (built : Device.new profile options ram = .ok fresh)
    (steady : Steady fresh d) {value : UInt64} (zero : value.toUInt32 = 0) :
    d.write 0x70 value 4 = ((fresh.carrying d).after d.past, .ok ()) := by
  have quiet : d.registers.events = .none := steady.events.trans (quiet_new built)
  have powered := new_eq_ok built
  -- What a reset leaves alone and a past does not carry was settled when the device was built.
  have base : d.base = fresh.base := congrArg (·.1) steady.fixed
  have intid : d.machine.line.intid = fresh.machine.line.intid := congrArg (·.2.2.1) steady.fixed
  have registers : { d.registers with
      config := d.registers.config.reset
      queues := d.registers.queues.map fun _ => .blank } = (fresh.carrying d).registers := by
    have same : d.registers.fixed = fresh.registers.fixed := congrArg (·.2.1) steady.fixed
    rw [powered] at same ⊢
    exact registers_reset same quiet
  have machine := machine_reset fresh d (by rw [powered]) (by rw [powered]) (by rw [powered])
    intid
  rw [d.write_zero quiet zero, registers, machine, after, registers_carrying_after built, base,
    powered]
  simp [carrying, past]

/-- A reset by the driver is a power-on, whatever happened before. Registers, queues, interrupt line
and session are those of a new device; the old virtqueues, sessions and calls are a past of which
nothing done to new handles shows a trace. -/
theorem reset_is_power_on {profile : Profile} {options : Options} {ram : Memory.Ram}
    {fresh d : Device} (built : Device.new profile options ram = .ok fresh) (actions : List Action)
    (reached : (fresh.run actions).1 = d) {value : UInt64} (zero : value.toUInt32 = 0) :
    ∃ p : Past, p.queues.length = d.machine.queues.length ∧ p.sessions.length = d.sessions.length ∧
      d.write 0x70 value 4 = ((fresh.carrying d).after p, .ok ()) ∧
      (d.write 0x70 value 4).1.registers = (fresh.carrying d).registers ∧
      (d.write 0x70 value 4).1.machine.line = fresh.machine.line ∧
      (d.write 0x70 value 4).1.delivered = false ∧ (d.write 0x70 value 4).1.session = none ∧
      ∀ later, (d.write 0x70 value 4).1.run (later.map p.action) =
        ((fresh.carrying d).run later).map (·.after p) id := by
  have steady := fresh.steady_run (quiet_new built) actions
  rw [reached] at steady
  have whole := write_zero_eq_after built steady zero
  obtain ⟨queues, retired, count⟩ := Machine.foldl_retireLive_eq d.machine d.registers.queues
  have numbers : d.past.queues.length = d.machine.queues.length := by
    rw [past, retired]
    exact count
  rw [whole]
  refine ⟨d.past, numbers, d.endSession_eq.2, rfl, registers_carrying_after built d _, rfl,
    ?_, ?_, ?_⟩
  · rw [new_eq_ok built]
    rfl
  · rw [new_eq_ok built]
    rfl
  · intro later
    exact run_after d.past _ later

theorem sampleDevice_reset :
    ∃ p : Past, p.queues.length = 1 ∧ p.sessions.length = 1 ∧
      sampleDevice.write 0x70 0x500000000 4 =
        ((sampleStart.carrying sampleDevice).after p, .ok ()) := by
  have queues : sampleDevice.machine.queues.length = 1 := by decide +kernel
  have sessions : sampleDevice.sessions.length = 1 := by decide +kernel
  have zero : (0x500000000 : UInt64).toUInt32 = 0 := by decide
  obtain ⟨p, oldQueues, oldSessions, whole, _⟩ :=
    reset_is_power_on sampleStart_built sampleActions rfl (d := sampleDevice) zero
  exact ⟨p, oldQueues.trans queues, oldSessions.trans sessions, whole⟩

end Device

end VirtioMmio
