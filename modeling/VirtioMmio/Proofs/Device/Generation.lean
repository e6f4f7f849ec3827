import VirtioMmio.Proofs.Config.Generation
import VirtioMmio.Proofs.Device.Queues
import VirtioMmio.Proofs.Device.Traceless

/-!
The generation of the configuration block. Driver and host both write to the block, and nothing else
touches it, not even a reset; `block_step` says so of one action. So the generation counts the
changes of a whole run, and a driver that reads it before and after its other reads can tell whether
these saw one and the same block. Main result: `generation_detects_changes`.
-/

namespace VirtioMmio

open Config (Block State)
open Transport (Register RegisterFile configSpace)

theorem Config.State.block_writeStatus (s : State) (v : UInt32) :
    (s.writeStatus v).2.block = s.block := by
  unfold writeStatus
  split
  · rfl
  · split <;> rfl

namespace Transport.RegisterFile

/-- A write to the configuration space that is taken is a write to the block. -/
theorem write_configSpace {t t' : RegisterFile} {m m' : Machine} {offset : UInt64} {size : UInt8}
    {value : UInt64} (inside : configSpace ≤ offset)
    (done : t.write m offset size value = .ok (t', m')) :
    ∃ changed block, t.config.block.write (offset - configSpace).toNat size.toNat value.toNat =
        (.written changed, block) ∧ t' = { t with config.block := block } ∧ m' = m := by
  unfold write at done
  split at done
  · cases done
  · rw [if_pos inside] at done
    unfold State.writeBlock at done
    dsimp only at done
    generalize t.config.block.write _ _ _ = written at done ⊢
    obtain ⟨outcome, block⟩ := written
    split at done
    next same =>
      cases same
      cases done
      exact ⟨_, _, rfl, rfl, rfl⟩
    · cases done
    · cases done

/-- No register holds the block. -/
theorem block_writeRegister {t t' : RegisterFile} {m m' : Machine} {v : UInt32} {r : Register}
    (done : t.writeRegister m v r = some (t', m')) : t'.config.block = t.config.block := by
  cases r <;> simp only [writeRegister, reduceCtorEq, Option.some.injEq, Prod.mk.injEq] at done
  case status =>
    rw [← t.config.block_writeStatus v]
    simp only [writeStatus] at done
    split at done <;> (cases done; rfl)
  all_goals obtain ⟨rfl, rfl⟩ := done
  case driverFeatures =>
    simp only [State.writeFeatures]
    repeat' split
    all_goals rfl
  case queueReady =>
    simp only [writeReady]
    split <;> rfl
  case queueNotify =>
    simp only [writeNotify]
    split <;> rfl
  case interruptAcknowledge =>
    simp only [writeAcknowledge]
    split <;> rfl
  all_goals rfl

/-- A write in front of the configuration space leaves the block alone. -/
theorem block_write_front {t t' : RegisterFile} {m m' : Machine} {offset : UInt64} {size : UInt8}
    {value : UInt64} (front : ¬ configSpace ≤ offset)
    (done : t.write m offset size value = .ok (t', m')) : t'.config.block = t.config.block := by
  unfold write at done
  split at done
  · cases done
  · rw [if_neg front] at done
    split at done
    · cases done
    · split at done
      next written =>
        cases done
        exact block_writeRegister written
      · cases done

end Transport.RegisterFile

/-- The driver is told of a change of the configuration: the cause is pending, beside what was
pending already, the interrupt controller is called if nothing was, and that is all. -/
structure Machine.TellsOfConfig (m m' : Machine) : Prop where
  raised : m' = m.raiseLine .configOnly
  pending : m'.line.pending = ⟨m.line.pending.ring, true⟩
  called : m'.calls =
    m.calls ++ if m.line.pending.isEmpty then [.line (.raise m.line.intid)] else []
  kept : m'.line.intid = m.line.intid ∧ m'.queues = m.queues ∧ m'.ram = m.ram ∧ m'.dma = m.dma

theorem Machine.tellsOfConfig_raiseLine (m : Machine) :
    m.TellsOfConfig (m.raiseLine .configOnly) where
  raised := rfl
  pending := by
    have union := m.line.pending_raise .configOnly
    rw [Interrupt.Causes.union, Interrupt.Causes.configOnly, Bool.or_false, Bool.or_true] at union
    exact union
  called := by
    have calls : (m.raiseLine .configOnly).calls =
        m.calls ++ (m.line.raise .configOnly).2.map .line := rfl
    have raised : (m.line.raise .configOnly).2 =
        if m.line.pending.isEmpty then [.raise m.line.intid] else [] := rfl
    rw [calls, raised]
    split <;> rfl
  kept := ⟨rfl, rfl, rfl, rfl⟩

/-- The driver accesses a register or the configuration space. -/
def Action.isAccess : Action → Bool
  | .access _ _ _ => true
  | _ => false

/-- The host writes to the configuration block. -/
def Action.isRevision : Action → Bool
  | .revise _ _ => true
  | _ => false

namespace Device

def block (d : Device) : Block :=
  d.registers.config.block

/-! ### Who writes to the block -/

/-- The action writes bytes to the block and is not refused: it is a write by the driver to the
configuration space, or one by the host. -/
inductive Stores (d : Device) : Action → Nat → List UInt8 → Prop
  | driver {value offset answer : UInt64} {size : UInt8} (inside : configSpace ≤ offset)
    (taken : (d.access (.write value) offset size).2 = .ok answer) :
    Stores d (.access (.write value) offset size) (offset - configSpace).toNat
      (LittleEndian.encode size.toNat value.toNat)
  | host {offset : Nat} {bytes : List UInt8} {d' : Device}
    (taken : d.reviseConfig offset bytes = .ok d') : Stores d (.revise offset bytes) offset bytes

/-- A write that is taken, and the event pass after it. -/
theorem access_taken {d : Device} {value offset : UInt64} {size : UInt8} {v : UInt64}
    (taken : (d.access (.write value) offset size).2 = .ok v) :
    ∃ registers machine, d.registers.write d.machine offset size value = .ok (registers, machine) ∧
      (d.access (.write value) offset size).1 =
        ({ d with registers, machine } : Device).settle := by
  unfold Device.access at taken ⊢
  dsimp only at taken ⊢
  cases written : d.registers.write d.machine offset size value with
  | error e =>
    rw [written] at taken
    cases taken
  | ok done => exact ⟨done.1, done.2, rfl, rfl⟩

theorem block_bringUpQueue (d : Device) (index : UInt16) :
    (d.bringUpQueue index).block = d.block := by
  unfold bringUpQueue
  split
  · rfl
  · dsimp only
    split
    · rfl
    · split
      · rfl
      · split <;> rfl

theorem block_followStatus (d : Device) : d.followStatus.block = d.block := by
  have ended : d.endSession.registers = d.registers := by
    unfold endSession
    split <;> rfl
  unfold followStatus
  split
  · show d.endSession.registers.config.block = d.block
    rw [ended, block]
  · split
    · unfold deliver
      dsimp only
      split <;> rfl
    · rfl

theorem block_notify (d : Device) (index : UInt16) : (d.notify index).block = d.block := by
  unfold notify
  dsimp only
  split <;> rfl

theorem block_foldl {f : Device → UInt16 → Device} (each : ∀ d index, (f d index).block = d.block)
    (indices : List UInt16) (d : Device) : (indices.foldl f d).block = d.block := by
  induction indices generalizing d with
  | nil => rfl
  | cons index indices ih => rw [List.foldl_cons, ih, each]

/-- The event pass has no business with the block. -/
theorem block_settle (d : Device) : d.settle.block = d.block := by
  have stage {after before : Device} (flag : Bool) (same : after.block = before.block) :
      (if flag then after else before).block = before.block := by
    split
    · exact same
    · rfl
  have apart (d : Device) (f : Machine → Machine) : (d.modifyMachine f).block = d.block := rfl
  show Device.block (if d.registers.events.notifyFlag then _ else _) = d.block
  -- From the last stage of the pass back to the first.
  refine (stage _ (block_foldl block_notify _ _)).trans ?_
  refine (stage _ (apart _ _)).trans ?_
  refine (stage _ (block_followStatus _)).trans ?_
  exact stage _ (block_foldl block_bringUpQueue _ _)

theorem block_access_configSpace {d : Device} {value offset answer : UInt64} {size : UInt8}
    (inside : configSpace ≤ offset) (taken : (d.access (.write value) offset size).2 = .ok answer) :
    ∃ changed, d.block.write (offset - configSpace).toNat size.toNat value.toNat =
      (.written changed, (d.access (.write value) offset size).1.block) := by
  obtain ⟨registers, machine, written, after⟩ := access_taken taken
  obtain ⟨changed, block, stored, rfl, rfl⟩ := RegisterFile.write_configSpace inside written
  rw [after, block_settle]
  exact ⟨changed, stored⟩

theorem block_access_refused {d : Device} {value offset : UInt64} {size : UInt8} {e : AccessError}
    (refused : (d.access (.write value) offset size).2 = .error e) :
    (d.access (.write value) offset size).1.block = d.block := by
  unfold Device.access at refused ⊢
  dsimp only at refused ⊢
  split
  · exact block_settle d
  next written =>
    rw [written] at refused
    cases refused

/-- An access in front of the configuration space leaves the block alone. -/
theorem block_access_front {d : Device} (access : Access) {offset : UInt64}
    (front : ¬ configSpace ≤ offset) (size : UInt8) :
    (d.access access offset size).1.block = d.block := by
  cases access with
  | read => exact block_settle d
  | write value =>
    cases answer : (d.access (.write value) offset size).2 with
    | error e => exact block_access_refused answer
    | ok v =>
      obtain ⟨registers, machine, written, after⟩ := access_taken answer
      rw [after, block_settle]
      exact RegisterFile.block_write_front front written

/-- A revision by the host that is taken. The driver hears of it if the block changed while the
device was running. -/
theorem reviseConfig_eq_ok {d d' : Device} {offset : Nat} {bytes : List UInt8}
    (revised : d.reviseConfig offset bytes = .ok d') :
    ∃ changed block, d.block.revise offset bytes = .ok (changed, block) ∧ d' =
      { d with
        registers.config.block := block
        machine := if changed && d.isRunning then d.machine.raiseLine .configOnly
          else d.machine } := by
  unfold reviseConfig State.reviseBlock at revised
  cases known : d.registers.config.block.revise offset bytes with
  | error e =>
    rw [known] at revised
    cases revised
  | ok outcome =>
    obtain ⟨changed, block⟩ := outcome
    rw [known] at revised
    refine ⟨changed, block, known, ?_⟩
    rw [isRunning]
    cases Except.ok.inj revised
    split <;> rfl

theorem registers_deals {d d' : Device} (deals : Deals d d') : d'.registers = d.registers := by
  obtain ⟨calls, dma, rfl, _⟩ := deals
  rfl

/-- Only accesses and revisions have a say in the block. -/
theorem block_step_other (d : Device) {action : Action} (noAccess : action.isAccess = false)
    (noRevision : action.isRevision = false) : (d.step action).1.block = d.block := by
  cases action with
  | access access offset size => cases noAccess
  | revise offset bytes => cases noRevision
  | settle => exact block_settle d
  | shutdown =>
    show d.shutdown.block = d.block
    rw [shutdown_eq]
    rfl
  | attach replies =>
    exact congrArg (·.config.block) (registers_deals (deals_attachIommu d replies))
  | detach => exact congrArg (·.config.block) (registers_deals (deals_detachIommu d))
  | map replies cls iova len rights =>
    exact congrArg (·.config.block) (registers_deals (deals_mapClass d replies cls iova len rights))
  | unmap replies cls =>
    exact congrArg (·.config.block) (registers_deals (deals_unmapClass d replies cls))
  | sessionRaise number =>
    show (d.sessionRaise number).block = d.block
    simp only [sessionRaise]
    split
    · split <;> rfl
    · rfl
  | sessionClear number =>
    show (d.sessionClear number).block = d.block
    simp only [sessionClear]
    split
    · split <;> rfl
    · rfl
  | protect base rights =>
    simp only [step]
    split <;> rfl
  | _ => rfl

/-! ### Steps -/

/-- An action that writes to the block leaves the written bytes there, and no other one changes it.
-/
theorem block_step (d : Device) (action : Action) :
    (∀ offset bytes, d.Stores action offset bytes →
        d.block.Takes offset bytes (d.step action).1.block) ∧
      ((∀ offset bytes, ¬ d.Stores action offset bytes) → (d.step action).1.block = d.block) := by
  constructor
  · intro offset bytes stores
    cases stores with
    | driver inside taken =>
      obtain ⟨changed, stored⟩ := block_access_configSpace inside taken
      exact Block.takes_write stored
    | host taken =>
      obtain ⟨changed, block, revised, same⟩ := reviseConfig_eq_ok taken
      simp only [step, taken]
      rw [same]
      exact (Block.takes_revise revised).1
  · intro none
    -- What is left are reads, writes to registers, what is refused, and actions of others.
    cases action with
    | access access offset size =>
      by_cases inside : configSpace ≤ offset
      · cases access with
        | read => exact block_settle d
        | write value =>
          cases answer : (d.access (.write value) offset size).2 with
          | error e => exact block_access_refused answer
          | ok v => exact absurd (.driver inside answer) (none _ _)
      · exact block_access_front access inside size
    | revise offset bytes =>
      simp only [step]
      cases revised : d.reviseConfig offset bytes with
      | error e => rfl
      | ok d' => exact absurd (.host revised) (none offset bytes)
    | _ => exact d.block_step_other rfl rfl

/-- The generation counts whether an action changed the block. -/
theorem generation_step (d : Device) (action : Action) :
    (d.step action).1.block.generation =
      d.block.generation + if (d.step action).1.block.bytes = d.block.bytes then 0 else 1 := by
  obtain ⟨takes, keeps⟩ := d.block_step action
  by_cases stores : ∃ offset bytes, d.Stores action offset bytes
  · obtain ⟨offset, bytes, stores⟩ := stores
    exact (takes offset bytes stores).generation
  · rw [keeps fun offset bytes here => stores ⟨offset, bytes, here⟩, if_pos rfl]
    exact (UInt32.add_zero _).symm

/-- A reset is not among the actions that write to the block. -/
theorem not_stores_of_isReset {d : Device} {action : Action} (reset : action.isReset = true)
    (offset : Nat) (bytes : List UInt8) : ¬ d.Stores action offset bytes := by
  intro stores
  cases stores with
  | @driver value offset answer size inside taken =>
    have named : (Action.access (.write value) offset size).value? .status = some 0 := by
      simpa only [Action.isReset, beq_iff_eq] using reset
    simp only [Action.value?] at named
    split at named
    next here => exact absurd inside (here.1 ▸ Register.offset_lt_configSpace .status)
    · cases named
  | host taken => cases reset

/-! ### Runs -/

/-- How many actions of a run change the block. -/
def changesDuring (d : Device) : List Action → Nat
  | [] => 0
  | action :: later =>
    (if (d.step action).1.block.bytes = d.block.bytes then 0 else 1) +
      (d.step action).1.changesDuring later

theorem changesDuring_append (d : Device) (first second : List Action) :
    d.changesDuring (first ++ second) =
      d.changesDuring first + (d.run first).1.changesDuring second := by
  induction first generalizing d with
  | nil => exact (Nat.zero_add _).symm
  | cons action first ih =>
    rw [List.cons_append, changesDuring, ih, changesDuring, Nat.add_assoc]
    rfl

theorem generation_run (d : Device) (actions : List Action) :
    (d.run actions).1.block.generation =
      d.block.generation + .ofNat (d.changesDuring actions) := by
  induction actions generalizing d with
  | nil => exact (UInt32.add_zero _).symm
  | cons action later ih =>
    have first := generation_step d action
    have rest := ih (d.step action).1
    rw [first] at rest
    refine rest.trans ?_
    rw [changesDuring, UInt32.ofNat_add, UInt32.add_assoc]
    split <;> rfl

theorem bytes_run_of_no_changes {d : Device} {actions : List Action}
    (none : d.changesDuring actions = 0) : (d.run actions).1.block.bytes = d.block.bytes := by
  induction actions generalizing d with
  | nil => rfl
  | cons action later ih =>
    obtain ⟨here, there⟩ := Nat.add_eq_zero_iff.mp none
    have same : (d.step action).1.block.bytes = d.block.bytes := by
      by_contra other
      rw [if_neg other] at here
      cases here
    exact (ih there).trans same

/-- Too few changes to go once around the counter cannot hide behind it. -/
theorem no_changes_of_generation {d : Device} {actions : List Action}
    (few : d.changesDuring actions < 2 ^ 32)
    (same : (d.run actions).1.block.generation = d.block.generation) :
    d.changesDuring actions = 0 := by
  rw [generation_run] at same
  have numbers := congrArg UInt32.toNat same
  have bound := d.block.generation.toNat_lt
  rw [UInt32.toNat_add, UInt32.toNat_ofNat'] at numbers
  omega

/-! ### Reads -/

theorem read_generation {d : Device} (settled : d.Settled) :
    (d.access .read Register.configGeneration.offset 4).2 = .ok d.block.generation.toUInt64 := by
  rw [access_readRegister settled]
  rfl

/-- What the driver reads from the configuration space. -/
theorem read_configSpace (d : Device) {offset : UInt64} (size : UInt8)
    (inside : configSpace ≤ offset) :
    (d.access .read offset size).2 =
      match RegisterFile.checkWidth offset size with
      | .error e => .error e
      | .ok () =>
        match d.block.read (offset - configSpace).toNat size.toNat with
        | some v => .ok (UInt64.ofNat v)
        | none => .error (.badOffset offset) := by
  show d.registers.read d.machine offset size = _
  simp only [RegisterFile.read]
  cases RegisterFile.checkWidth offset size with
  | error e => rfl
  | ok => exact if_pos inside

theorem eq_decode_of_read {d : Device} {offset v : UInt64} {size : UInt8}
    (inside : configSpace ≤ offset) (read : (d.access .read offset size).2 = .ok v) :
    v = .ofNat (LittleEndian.decode (d.block.slice (offset - configSpace).toNat size.toNat)) := by
  rw [read_configSpace d size inside] at read
  split at read
  · cases read
  · simp only [Block.read] at read
    split at read
    next v' found =>
      cases read
      split at found
      · cases found
        rfl
      · cases found
    · cases read

/-- The generation of the configuration block detects torn reads. Whoever writes to the block, a
write that is taken leaves its bytes there, and the generation advances by one, modulo `2 ^ 32`, if
this changed the block; no other action touches the block or its generation, be it a reset or a
write that is refused. So if a driver finds the same generation before and after a run with fewer
than `2 ^ 32` changes, all that it read from the configuration space during the run comes from one
block, the one that was there before. The driver is interrupted on a revision by the host if and
only if the block changed while the device was running. -/
theorem generation_detects_changes {profile : Profile} {options : Options} {ram : Memory.Ram}
    {d₀ d : Device} (built : Device.new profile options ram = .ok d₀) (actions : List Action)
    (reached : (d₀.run actions).1 = d) :
    (∀ action,
        (∀ offset bytes, d.Stores action offset bytes →
          d.block.Takes offset bytes (d.step action).1.block) ∧
        ((∀ offset bytes, ¬ d.Stores action offset bytes) → (d.step action).1.block = d.block) ∧
        (action.isReset = true → (d.step action).1.block = d.block)) ∧
      (∀ later, (d.run later).1.block.generation =
        d.block.generation + .ofNat (d.changesDuring later)) ∧
      (∀ between, d.changesDuring between < 2 ^ 32 →
        ((d.run between).1.access .read Register.configGeneration.offset 4).2 =
          (d.access .read Register.configGeneration.offset 4).2 →
        ∀ front offset size back, between = front ++ .access .read offset size :: back →
          configSpace ≤ offset →
          ((d.run front).1.access .read offset size).2 = (d.access .read offset size).2 ∧
          ∀ v, ((d.run front).1.access .read offset size).2 = .ok v →
            v = .ofNat (LittleEndian.decode
              (d.block.slice (offset - configSpace).toNat size.toNat))) ∧
      ∀ offset bytes,
        (∀ d', d.reviseConfig offset bytes = .ok d' →
          (d'.block.bytes ≠ d.block.bytes ∧ d.isRunning = true →
            d.machine.TellsOfConfig d'.machine) ∧
          (¬ (d'.block.bytes ≠ d.block.bytes ∧ d.isRunning = true) → d'.machine = d.machine)) ∧
        ∀ e, d.reviseConfig offset bytes = .error e →
          d.step (.revise offset bytes) = (d, .config (.error e)) := by
  have settled : d.Settled := reached ▸ settled_run (settled_new built) actions
  refine ⟨fun action => ?_, generation_run d, ?_, fun offset bytes => ⟨?_, ?_⟩⟩
  · obtain ⟨takes, keeps⟩ := d.block_step action
    exact ⟨takes, keeps, fun reset => keeps (not_stores_of_isReset reset)⟩
  · rintro between few same front offset size back rfl inside
    rw [read_generation settled, read_generation (settled_run settled _)] at same
    -- One generation at both ends means no change in between, so none in front of the read either.
    have none := no_changes_of_generation few (UInt32.toUInt64_inj.mp (Except.ok.inj same))
    rw [changesDuring_append] at none
    have bytes := bytes_run_of_no_changes (Nat.add_eq_zero_iff.mp none).1
    have alike : ((d.run front).1.access .read offset size).2 = (d.access .read offset size).2 := by
      rw [read_configSpace d size inside, read_configSpace _ size inside,
        Block.read_congr bytes]
    refine ⟨alike, fun v read => ?_⟩
    rw [alike] at read
    exact eq_decode_of_read inside read
  · intro d' revised
    obtain ⟨changed, block, known, rfl⟩ := reviseConfig_eq_ok revised
    obtain ⟨_, told⟩ := Block.takes_revise known
    constructor
    · rintro ⟨other, running⟩
      simp only [told.mpr other, running, Bool.and_self, if_true]
      exact d.machine.tellsOfConfig_raiseLine
    · intro quiet
      have unheard : ¬ (changed && d.isRunning) = true := by
        intro both
        obtain ⟨changes, running⟩ := Bool.and_eq_true_iff.mp both
        exact quiet ⟨told.mp changes, running⟩
      exact if_neg unheard
  · intro e refused
    simp only [step, refused]

/-! A running device with two bytes that the driver may write. Between two looks at the generation
the driver writes what is there already, is refused a byte that is not its own and resets the
device, and the host is refused a revision that does not fit; the reads in between see one block. -/

def publicProfile : Profile :=
  { sampleProfile with writable := [⟨0, 2⟩] }

def publicStart : Device where
  base := 0xa000000
  registers := .new .block 256 1 (.new version1Feature [1, 2, 3, 4] [⟨0, 2⟩])
  machine := { ram := Machine.sampleRam, dma := .unmapped 1, line := ⟨48, .nothing⟩ }

theorem publicStart_built :
    Device.new publicProfile sampleOptions Machine.sampleRam = .ok publicStart := by
  rfl

def publicActions : List Action :=
  driverWrites [(0x70, 1), (0x70, 3), (0x70, 11), (0x70, 15)]

def publicDevice : Device :=
  (publicStart.run publicActions).1

def publicFront : List Action :=
  [.access (.write 1) 0x100 1, .access (.write 9) 0x103 1, .revise 3 [7, 7],
    .access (.write 0) 0x70 4]

theorem publicDevice_detects :
    publicDevice.block.Takes 0 [9] (publicDevice.step (.revise 0 [9])).1.block ∧
      publicDevice.step (.revise 3 [7, 7]) = (publicDevice, .config (.error (.configTooLarge 5))) ∧
      (∃ d', publicDevice.reviseConfig 0 [9] = .ok d' ∧
        d'.machine.line.pending = ⟨false, true⟩ ∧
        d'.machine.calls = publicDevice.machine.calls ++ [.line (.raise 48)]) ∧
      (publicDevice.step (.access (.write 0) 0x70 4)).1.block = publicDevice.block ∧
      ((publicDevice.run publicFront).1.access .read 0x102 2).2 = .ok 0x403 := by
  obtain ⟨each, _, torn, revised⟩ :=
    generation_detects_changes publicStart_built publicActions rfl (d := publicDevice)
  have few : publicDevice.changesDuring (publicFront ++ [.access .read 0x102 2]) < 2 ^ 32 := by
    decide +kernel
  have same : ((publicDevice.run (publicFront ++ [.access .read 0x102 2])).1.access .read
      Register.configGeneration.offset 4).2 =
      (publicDevice.access .read Register.configGeneration.offset 4).2 := by
    decide +kernel
  have now : (publicDevice.access .read 0x102 2).2 = .ok 0x403 := by decide +kernel
  have tooLong : publicDevice.reviseConfig 3 [7, 7] = .error (.configTooLarge 5) := by rfl
  obtain ⟨d', taken⟩ : ∃ d', publicDevice.reviseConfig 0 [9] = .ok d' := ⟨_, rfl⟩
  have changed : d'.block.bytes ≠ publicDevice.block.bytes ∧ publicDevice.isRunning = true := by
    cases taken
    decide +kernel
  have told := ((revised 0 [9]).1 d' taken).1 changed
  refine ⟨(each _).1 0 [9] (.host taken), (revised 3 [7, 7]).2 _ tooLong,
    ⟨d', taken, told.pending, told.called⟩, (each _).2.2 (by decide +kernel), ?_⟩
  exact (torn _ few same publicFront 0x102 2 [] rfl (by decide)).1.trans now

end Device

end VirtioMmio
