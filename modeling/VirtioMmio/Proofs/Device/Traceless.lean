import VirtioMmio.Proofs.Device.Effects

/-!
Accesses that leave no trace. Main result: `access_traceless`. In every reachable state a read and a
rejected write leave the device exactly as it was: registers, configuration, queues, notes,
interrupts, sessions, mappings, guest RAM and the record of calls.

The event pass runs after these accesses too. It finds nothing to do, since every access before took
its own notes away (`settled_step`), and neither a read nor a rejected write leaves one.
-/

namespace VirtioMmio

open Config (Block BlockOutcome State)
open Transport (RegisterFile)

/-! ### Before a write is rejected -/

/-- A refused write to the configuration block is refused before any byte of it is changed. -/
theorem Config.Block.write_refused (b : Block) (offset size value : Nat)
    (refused : ∀ changed, (b.write offset size value).1 ≠ .written changed) :
    (b.write offset size value).2 = b := by
  simp only [write] at refused ⊢
  split
  · rfl
  next inside =>
    split
    · rfl
    next writable =>
      rw [if_neg inside, if_neg writable] at refused
      split
      · rfl
      next other =>
        rw [if_neg other] at refused
        exact absurd rfl (refused true)

theorem Config.State.writeBlock_refused (s : State) (offset size value : Nat)
    (refused : ∀ changed, (s.writeBlock offset size value).1 ≠ .written changed) :
    (s.writeBlock offset size value).2 = s := by
  have same := s.block.write_refused offset size value refused
  simp only [writeBlock, same]

namespace Device

/-! ### Accesses in settled states -/

theorem access_read {d : Device} (settled : d.Settled) (offset : UInt64) (size : UInt8) :
    d.access .read offset size = (d, d.registers.read d.machine offset size) := by
  unfold Device.access
  dsimp only
  rw [settle_quiet settled.quiet]

/-- What the driver reads from a register. -/
theorem access_readRegister {d : Device} (settled : d.Settled) (r : Transport.Register) :
    d.access .read r.offset 4 =
      (d, match d.registers.readRegister d.machine r with
        | some v => .ok v.toUInt64
        | none => .error (.writeOnly r.offset)) := by
  rw [access_read settled]
  unfold RegisterFile.read
  cases known : d.registers.readRegister d.machine r <;>
    simp only [r.checkWidth_offset, if_neg r.offset_lt_configSpace,
      Transport.Register.ofOffset?_offset r, known]

theorem access_rejected {d : Device} (settled : d.Settled) {offset : UInt64} {size : UInt8}
    {value : UInt64} {e : AccessError}
    (rejected : (d.access (.write value) offset size).2 = .error e) :
    d.access (.write value) offset size = (d, .error e) := by
  unfold Device.access at rejected ⊢
  dsimp only at rejected ⊢
  cases written : d.registers.write d.machine offset size value with
  | error e' =>
    rw [written] at rejected
    cases rejected
    dsimp only
    rw [settle_quiet settled.quiet]
  | ok done =>
    rw [written] at rejected
    cases rejected

/-- However a device came to its state, reads and rejected writes leave no trace. What a rejected
write to the configuration space was about to store is what is stored there already. -/
theorem access_traceless {profile : Profile} {options : Options} {ram : Memory.Ram}
    {d₀ d : Device} (built : Device.new profile options ram = .ok d₀) (actions : List Action)
    (reached : (d₀.run actions).1 = d) (offset : UInt64) (size : UInt8) :
    d.access .read offset size = (d, d.registers.read d.machine offset size) ∧
      ∀ value : UInt64,
        (∀ e, (d.access (.write value) offset size).2 = .error e →
          d.access (.write value) offset size = (d, .error e)) ∧
        ((∀ changed, (d.registers.config.writeBlock (offset - Transport.configSpace).toNat
            size.toNat value.toNat).1 ≠ .written changed) →
          (d.registers.config.writeBlock (offset - Transport.configSpace).toNat
            size.toNat value.toNat).2 = d.registers.config) := by
  have settled : d.Settled := reached ▸ settled_run (settled_new built) actions
  refine ⟨access_read settled offset size, fun value => ⟨fun e rejected => ?_, ?_⟩⟩
  · exact access_rejected settled rejected
  · exact d.registers.config.writeBlock_refused _ _ _

/-! The sample device has a running session and a queue. A read of its status, a write to a
configuration byte that is not the driver's, and a write to no register at all. -/

theorem sampleDevice_traceless :
    sampleDevice.access .read 0x70 4 = (sampleDevice, .ok 15) ∧
      sampleDevice.access (.write 7) 0x101 1 = (sampleDevice, .error (.readOnly 0x101)) ∧
      sampleDevice.access (.write 7) 0xffff_ffff_ffff_fffc 8 =
        (sampleDevice, .error (.badOffset 0xffff_ffff_ffff_fffc)) := by
  have answer : sampleDevice.registers.read sampleDevice.machine 0x70 4 = .ok 15 := by
    decide +kernel
  have config : (sampleDevice.access (.write 7) 0x101 1).2 = .error (.readOnly 0x101) := by
    decide +kernel
  have nowhere : (sampleDevice.access (.write 7) 0xffff_ffff_ffff_fffc 8).2 =
      .error (.badOffset 0xffff_ffff_ffff_fffc) := by
    decide +kernel
  have status := (access_traceless sampleStart_built sampleActions rfl (d := sampleDevice) 0x70 4).1
  rw [answer] at status
  exact ⟨status,
    ((access_traceless sampleStart_built sampleActions rfl 0x101 1).2 7).1 _ config,
    ((access_traceless sampleStart_built sampleActions rfl 0xffff_ffff_ffff_fffc 8).2 7).1 _
      nowhere⟩

end Device

end VirtioMmio
