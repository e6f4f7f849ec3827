import VirtioMmio.Proofs.Device.Moves
import VirtioMmio.Proofs.Device.Traceless

/-!
The interrupt of a device, seen from three sides: by the bus, by the driver, and by the interrupt
controller. Main result: `interrupt_level_agrees`. A line tells its controller of every change of
its level and of nothing else, and whatever happened to a device and its line, all three see the
same.

Backends and others hold the line of a device as well and may do to it what they like, at any time;
`Occurrence` allows for that.
-/

namespace VirtioMmio

open Interrupt (Cause Causes Line)
open Transport (Register)

namespace Interrupt.Causes

theorem bits_eq_zero_iff (causes : Causes) : causes.bits = 0 ↔ causes.isEmpty = true := by
  obtain ⟨ring, config⟩ := causes
  cases ring <;> cases config <;> decide

end Interrupt.Causes

/-- What happens to a device: an action, or an operation on the interrupt line that somebody else
holds. -/
inductive Occurrence where
  | action (action : Action)
  | line (operation : Line.Operation)

namespace Device

def occur (d : Device) : Occurrence → Device
  | .action action => (d.step action).1
  | .line operation => d.modifyMachine fun m => m.withLine (m.line.operate operation)

theorem settled_occur {d : Device} (settled : d.Settled) (occurrence : Occurrence) :
    (d.occur occurrence).Settled := by
  cases occurrence with
  | action action => exact settled_step settled action
  | line operation => exact ⟨settled.quiet, settled.few⟩

theorem drives_occur {d : Device} (settled : d.Settled) (occurrence : Occurrence) :
    Machine.Drives d.machine (d.occur occurrence).machine := by
  cases occurrence with
  | action action => exact drives_step settled action
  | line operation => exact .withLine d.machine operation

theorem drives_occurrences {d : Device} (settled : d.Settled) (occurrences : List Occurrence) :
    (occurrences.foldl occur d).Settled ∧
      Machine.Drives d.machine (occurrences.foldl occur d).machine := by
  induction occurrences generalizing d with
  | nil => exact ⟨settled, .of_same rfl rfl⟩
  | cons occurrence later ih =>
    obtain ⟨still, drives⟩ := ih (settled_occur settled occurrence)
    exact ⟨still, (drives_occur settled occurrence).trans drives⟩

/-- However its line came to its state, what the bus sees of the interrupt is what the driver
reads. -/
theorem pendingInterrupt_iff_read {d : Device} (settled : d.Settled) :
    ∃ v, d.access .read Register.interruptStatus.offset 4 = (d, .ok v) ∧
      (v ≠ 0 ↔ d.machine.line.isPending = true) := by
  refine ⟨_, access_readRegister settled .interruptStatus, ?_⟩
  rw [Line.isPending, Bool.not_eq_true', ← Bool.not_eq_true, ← Causes.bits_eq_zero_iff]
  refine not_congr ?_
  rw [← UInt64.toNat_inj, ← UInt32.toNat_inj, UInt32.toNat_toUInt64]
  rfl

/-- On a line on which nothing pended at first, the calls on the controller alternate and start by
raising it, the last call raises it exactly if a cause pends, and a cause pends exactly if it was
raised and not cleared since. On a device this holds for whatever happened since it was built, and
it asks the bus for an interrupt exactly if the driver reads a cause from the interrupt status,
which is if the controller sees the line raised. -/
theorem interrupt_level_agrees {profile : Profile} {options : Options} {ram : Memory.Ram}
    {d₀ d : Device} (built : Device.new profile options ram = .ok d₀)
    (occurrences : List Occurrence) (reached : occurrences.foldl occur d₀ = d) :
    (∀ (intid : UInt32) (operations : List Line.Operation),
      let (line, calls) := Line.run ⟨intid, .nothing⟩ operations
      Line.Alternates intid calls ∧
        (calls.getLast? = some (.raise intid) ↔ ∃ cause, line.pending.has cause = true) ∧
        ∀ cause, line.pending.has cause = true ↔ Line.Standing operations cause) ∧
      (∃ operations, Line.run ⟨options.intid, .nothing⟩ operations =
        (d.machine.line, d.machine.lineCalls)) ∧
      (d.pendingInterrupt = none ∨ d.pendingInterrupt = some options.intid) ∧
      (d.pendingInterrupt.isSome = true ↔
        d.machine.lineCalls.getLast? = some (.raise options.intid)) ∧
      ∃ v, d.access .read Register.interruptStatus.offset 4 = (d, .ok v) ∧
        (d.pendingInterrupt.isSome = true ↔ v ≠ 0) := by
  have settled₀ := settled_new built
  have idle : d₀.machine.line = ⟨options.intid, .nothing⟩ := by rw [new_eq_ok built]
  have silent : d₀.machine.lineCalls = [] := by
    rw [new_eq_ok built]
    rfl
  obtain ⟨settled, operations, line, calls⟩ := drives_occurrences settled₀ occurrences
  rw [reached] at settled line calls
  rw [idle] at line calls
  rw [silent, List.nil_append] at calls
  -- What holds of lines is applied twice: to any line, and to the operations that drove this one.
  have tells (intid : UInt32) (operations : List Line.Operation) :=
    (Line.Tells.of_idle (l := ⟨intid, .nothing⟩) rfl).run operations
  have known : d.machine.line.intid = options.intid := by rw [line, Line.intid_run]
  have asks : d.pendingInterrupt.isSome = d.machine.line.isPending := by
    rw [pendingInterrupt]
    split
    next pending => exact pending.symm
    next none => exact (Bool.eq_false_iff.mpr none).symm
  refine ⟨?_, ⟨operations, Prod.ext line.symm calls.symm⟩, ?_, ?_, ?_⟩
  · intro intid operations
    have told := tells intid operations
    have level := told.getLast?
    have alternates := told.alternates
    rw [List.nil_append, Line.intid_run] at level alternates
    refine ⟨alternates, level.trans ?_, Line.has_run rfl operations⟩
    rw [Line.isPending, Bool.not_eq_true', Causes.isEmpty_eq_false_iff]
  · rw [pendingInterrupt, known]
    split
    · exact .inr rfl
    · exact .inl rfl
  · have level := (tells options.intid operations).getLast?
    rw [List.nil_append, ← line, ← calls, known] at level
    rw [asks, level]
  · obtain ⟨v, read, pending⟩ := pendingInterrupt_iff_read settled
    exact ⟨v, read, by rw [asks, pending]⟩

/-! The driver of a console acknowledges a change of the configuration, and then a backend that
holds the line raises both causes and clears one of them. -/

def consoleOccurrences : List Occurrence :=
  [.action (.access (.write 1) 0x70 4), .action (.access (.write 3) 0x70 4),
    .action (.access (.write 1) 0x24 4), .action (.access (.write 1) 0x20 4),
    .action (.access (.write 11) 0x70 4), .action (.access (.write 15) 0x70 4),
    .action (.revise 0 [80]), .action (.access (.write 3) 0x64 4),
    .line (.raise .all), .line (.clear .ringOnly)]

theorem consoleOccurrences_agree :
    (consoleOccurrences.foldl occur consoleStart).machine.lineCalls =
        [.raise 48, .lower 48, .raise 48] ∧
      (consoleOccurrences.foldl occur consoleStart).pendingInterrupt = some 48 ∧
      ∃ v, (consoleOccurrences.foldl occur consoleStart).access .read 0x60 4 =
        (consoleOccurrences.foldl occur consoleStart, .ok v) ∧ v ≠ 0 := by
  obtain ⟨_, _, asks, level, v, read, nonzero⟩ := interrupt_level_agrees
    (Setup.new_of_build consoleStart_built) consoleOccurrences rfl
  have calls : (consoleOccurrences.foldl occur consoleStart).machine.lineCalls =
      [.raise 48, .lower 48, .raise 48] := by
    decide +kernel
  have asking := level.mpr (by rw [calls]; rfl)
  refine ⟨calls, asks.resolve_left ?_, v, read, nonzero.mp asking⟩
  intro none
  rw [none] at asking
  cases asking

end Device

end VirtioMmio
