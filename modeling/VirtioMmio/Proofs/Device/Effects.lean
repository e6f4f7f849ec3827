import VirtioMmio.Proofs.Config.Progress
import VirtioMmio.Proofs.Device.Aside
import VirtioMmio.Proofs.Device.Reset
import VirtioMmio.Proofs.Queue.Rings

/-!
What one action makes of a device. A write only leaves a note and the event pass acts on it; as the
pass follows at once there is never more than one note, so a write may as well act itself, which is
what `Device.carryOut` does. Main results: `access_register`, by which the two ways come to the
same, and `step_happens`, the inversion of `Device.step` on which invariants of runs rest.
-/

namespace VirtioMmio

open Backend (BackendCall)
open Config (State)
open Queue (Mask Registers Virtqueue)
open Transport (Events Register RegisterFile)
open Vring (Layout)

/-! ### A single note -/

namespace Queue.Mask

theorem toList_insert_empty {queue : UInt16} (small : queue < 64) :
    (Mask.empty.insert queue).toList = [queue] := by
  have only (n : UInt16) : n ∈ (Mask.empty.insert queue).toList ↔ n = queue := by
    have nothing : Mask.empty.contains n.toNat = false := Nat.zero_testBit _
    rw [mem_toList_iff, contains_insert _ _ small, nothing, Bool.false_or, beq_iff_eq]
    constructor
    · intro found
      exact UInt16.toNat_inj.mp found.2
    · rintro rfl
      exact ⟨small, rfl⟩
  have increasing := (Mask.empty.insert queue).toList_increasing
  -- All members are the same queue, so a second one could not be larger than the first.
  cases list : (Mask.empty.insert queue).toList with
  | nil =>
    have member := (only queue).mpr rfl
    rw [list] at member
    cases member
  | cons first others =>
    rw [list] at only increasing
    have same : first = queue := (only first).mp List.mem_cons_self
    cases others with
    | nil => rw [same]
    | cons second others =>
      have same' : second = queue := (only second).mp (List.mem_cons_of_mem _ List.mem_cons_self)
      have less : first < second := List.rel_of_pairwise_cons increasing List.mem_cons_self
      rw [same, same'] at less
      exact absurd less (UInt16.lt_irrefl queue)

end Queue.Mask

namespace Device

/-- The event pass over the notes of one access: there were none before it. -/
theorem settle_noted {d : Device} (quiet : d.registers.events = .none) (events : Events) :
    ({ d with registers.events := events } : Device).settle =
      stage events.notifyFlag (fun d' => events.notify.toList.foldl notify d')
        (stage events.acknowledgeFlag (·.modifyMachine (·.clearLine events.acknowledge))
          (stage events.statusFlag followStatus
            (stage events.readyFlag (fun d' => events.readied.toList.foldl bringUpQueue d') d))) := by
  have taken : ({ d with registers.events := .none } : Device) = d := by
    rw [← quiet]
  rw [settle_eq]
  dsimp only
  rw [taken]

/-- With no note the event pass does nothing. -/
theorem settle_quiet {d : Device} (quiet : d.registers.events = .none) : d.settle = d := by
  have same : ({ d with registers.events := Events.none } : Device) = d := by
    rw [← quiet]
  have passed := settle_noted quiet Events.none
  rw [same] at passed
  exact passed

theorem settle_ready {d : Device} (quiet : d.registers.events = .none) {queue : UInt16}
    (small : queue < 64) :
    ({ d with registers.events := Events.none.noteReady queue } : Device).settle =
      d.bringUpQueue queue := by
  have single : (Events.none.noteReady queue).readied.toList = [queue] :=
    Mask.toList_insert_empty small
  rw [settle_noted quiet, single]
  rfl

theorem settle_notify {d : Device} (quiet : d.registers.events = .none) {queue : UInt16}
    (small : queue < 64) :
    ({ d with registers.events := Events.none.noteNotify queue } : Device).settle =
      d.notify queue := by
  have single : (Events.none.noteNotify queue).notify.toList = [queue] :=
    Mask.toList_insert_empty small
  rw [settle_noted quiet, single]
  rfl

theorem settle_acknowledge {d : Device} (quiet : d.registers.events = .none)
    (causes : Interrupt.Causes) :
    ({ d with registers.events := Events.none.noteAcknowledge causes } : Device).settle =
      d.modifyMachine (·.clearLine causes) := by
  rw [settle_noted quiet]
  rfl

theorem settle_status {d : Device} (quiet : d.registers.events = .none) :
    ({ d with registers.events := Events.none.noteStatus } : Device).settle = d.followStatus := by
  rw [settle_noted quiet]
  rfl

/-! ### Writes that act at once -/

/-- The driver has told the device that it is done with its set-up. -/
def isRunning (d : Device) : Bool :=
  d.registers.config.status.driverOk

def withConfig (d : Device) (config : State) : Device :=
  { d with registers.config := config }

def withQueue (d : Device) (index : UInt16) (r : Registers) : Device :=
  { d with registers := { d.registers with queues := d.registers.queues.set index.toNat r } }

/-- A write to the ready register, carried out at once. -/
def makeReady (d : Device) (v : UInt32) : Device :=
  if v = 0 || d.registers.selected?.isNone then d
  else
    ({ d with registers := d.registers.modifySelected .markReady } : Device).bringUpQueue
      d.registers.config.queue

/-- A write to the notify register, carried out at once. -/
def ring (d : Device) (v : UInt32) : Device :=
  if v.toNat < d.registers.queues.length then d.notify v.toUInt16 else d

/-- A write to the acknowledge register, carried out at once. -/
def acknowledge (d : Device) (v : UInt32) : Device :=
  if (Interrupt.Causes.ofBits v).isEmpty then d
  else d.modifyMachine (·.clearLine (.ofBits v))

/-- A write to the status register, carried out at once. -/
def writeStatus (d : Device) (v : UInt32) : Device :=
  if v = 0 then d.powerOn.tellBackend d.backend.reset
  else
    let (outcome, config) := d.registers.config.writeStatus v
    let d := d.withConfig config
    match outcome with
    | .accepted true => if d.delivered then d else d.deliver
    | _ => d

/-- What a write to a register makes of the device, with nothing put off. -/
def carryOut (d : Device) (v : UInt32) : Register → Device
  | .queueReady => d.makeReady v
  | .queueNotify => d.ring v
  | .interruptAcknowledge => d.acknowledge v
  | .status => d.writeStatus v
  | .queueSize => { d with registers := d.registers.modifySelected (·.writeSize v) }
  | .queueAddress part half =>
    { d with registers := d.registers.modifySelected (·.writeAddr part half v) }
  | r => d.withConfig (d.registers.config.write v r)

/-- What an attempt to bring a queue up comes to. -/
inductive BringsUp (d : Device) (index : UInt16) : Device → Prop
  | absent (none : d.registers.queues[index.toNat]? = none) : BringsUp d index d
  | already {r : Registers} (found : d.registers.queues[index.toNat]? = some r)
    (up : r.isUp = true) : BringsUp d index d
  | refused {r : Registers} (found : d.registers.queues[index.toNat]? = some r)
    (down : r.isUp = false) : BringsUp d index (d.withQueue index r.unmarkReady)
  | done {r : Registers} {layout : Layout} (found : d.registers.queues[index.toNat]? = some r)
    (down : r.isUp = false) (early : d.isRunning = false)
    (accepted : Layout.new r.size d.registers.maxQueueSize r.desc r.driver r.device = .ok layout)
    (backed : layout.Backed ⟨d.machine.ram, d.machine.dma, index⟩) :
    BringsUp d index { d.withQueue index { r with live := some d.machine.queues.length } with
      machine := { d.machine with
        queues := d.machine.queues ++
          [{ index, layout, indirect := d.registers.config.negotiated &&& indirectFeature != 0 }] } }

theorem bringsUp (d : Device) (index : UInt16) : BringsUp d index (d.bringUpQueue index) := by
  unfold bringUpQueue
  cases found : d.registers.queues[index.toNat]? with
  | none => exact .absent found
  | some r =>
    dsimp only
    cases state : r.isUp with
    | true => exact .already found state
    | false =>
      simp only [Bool.false_eq_true, if_false]
      cases running : d.registers.config.status.driverOk with
      | true => exact .refused found state
      | false =>
        simp only [Bool.false_eq_true, if_false]
        split
        · exact .refused found state
        next done =>
          obtain ⟨layout, accepted, backed, rfl, rfl⟩ := Machine.bringUp_eq_ok state done
          exact .done found state running accepted backed

/-- What a write to the status register comes to. -/
inductive StatusWritten (d : Device) (v : UInt32) : Device → Prop
  | reset (zero : v = 0) : StatusWritten d v (d.powerOn.tellBackend d.backend.reset)
  | rejected (nonzero : v ≠ 0) : StatusWritten d v d
  | moved {status : Config.Status} (nonzero : v ≠ 0)
    (follows : State.Follows d.registers.config.status status)
    (still : d.delivered = d.isRunning → status.driverOk = d.isRunning) :
    StatusWritten d v (d.withConfig (d.registers.config.settle status))
  | started {status : Config.Status} (nonzero : v ≠ 0)
    (follows : State.Follows d.registers.config.status status) (running : status.driverOk = true)
    (before : d.isRunning = false) (untold : d.delivered = false) :
    StatusWritten d v (d.withConfig (d.registers.config.settle status)).deliver

theorem statusWritten (d : Device) (v : UInt32) : StatusWritten d v (d.writeStatus v) := by
  by_cases zero : v = 0
  · simp only [writeStatus, zero, if_true]
    exact .reset rfl
  · simp only [writeStatus, zero, if_false]
    rcases d.registers.config.writeStatus_nonzero zero with refused | ⟨status, follows, taken⟩
    · rw [refused]
      exact .rejected zero
    · rw [taken]
      have kept := State.Follows.includes follows
      cases before : d.isRunning with
      | true =>
        have running : status.driverOk = true := Config.Status.driverOk_of_includes kept before
        have old : d.registers.config.status.driverOk = true := before
        rw [running, old]
        exact .moved zero follows fun _ => running.trans before.symm
      | false =>
        have old : d.registers.config.status.driverOk = false := before
        rw [old]
        cases running : status.driverOk with
        | false => exact .moved zero follows fun _ => running.trans before.symm
        | true =>
          -- The outcome is new to the driver's set-up; what is left is whether it was told before.
          change StatusWritten d v (if d.delivered then
            d.withConfig (d.registers.config.settle status)
            else (d.withConfig (d.registers.config.settle status)).deliver)
          by_cases told : d.delivered = true
          · rw [if_pos told]
            refine .moved zero follows fun prompt => ?_
            rw [told, before] at prompt
            cases prompt
          · rw [if_neg told]
            exact .started zero follows running before (Bool.eq_false_iff.mpr told)

end Device

/-! ### Accesses -/

namespace Transport

namespace Register

/-- The driver may not write the register. -/
def isReadOnly : Register → Bool
  | .magic | .version | .deviceId | .vendorId | .offeredFeatures | .queueSizeMax
  | .interruptStatus | .configGeneration => true
  | _ => false

theorem offset_inj {r r' : Register} (same : r.offset = r'.offset) : r = r' := by
  have found := ofOffset?_offset r
  rw [same, ofOffset?_offset r'] at found
  exact (Option.some.inj found).symm

theorem checkWidth_offset (r : Register) : RegisterFile.checkWidth r.offset 4 = .ok () := by
  cases r with
  | queueAddress part half => cases part <;> cases half <;> rfl
  | _ => rfl

theorem offset_lt_configSpace (r : Register) : ¬ configSpace ≤ r.offset := by
  cases r with
  | queueAddress part half => cases part <;> cases half <;> decide
  | _ => decide

end Register

namespace RegisterFile

theorem checkWidth_low {offset : UInt64} {size : UInt8} (low : ¬ configSpace ≤ offset)
    (fits : checkWidth offset size = .ok ()) : size = 4 := by
  simp only [checkWidth] at fits
  split at fits
  · cases fits
  · rw [if_pos (UInt64.not_le.mp low)] at fits
    split at fits
    · cases fits
    next word => simpa using word

theorem write_register (t : RegisterFile) (m : Machine) (r : Register) (value : UInt64) :
    t.write m r.offset 4 value =
      match t.writeRegister m value.toUInt32 r with
      | some written => .ok written
      | none => .error (.readOnly r.offset) := by
  unfold write
  rw [r.checkWidth_offset]
  dsimp only
  rw [if_neg r.offset_lt_configSpace]
  have named := Register.ofOffset?_offset r
  split
  next none =>
    rw [named] at none
    cases none
  next found =>
    rw [named] at found
    cases found
    cases t.writeRegister m value.toUInt32 r <;> rfl

/-- A write that takes effect and is no write to a register changes the configuration block. -/
theorem write_elsewhere {t t' : RegisterFile} {m m' : Machine} {offset : UInt64} {size : UInt8}
    {value : UInt64} (elsewhere : ∀ r : Register, ¬ (offset = r.offset ∧ size = 4))
    (done : t.write m offset size value = .ok (t', m')) :
    m' = m ∧ ∃ block, t' = { t with config.block := block } := by
  unfold write at done
  split at done
  · cases done
  next fits =>
    split at done
    · unfold State.writeBlock at done
      dsimp only at done
      split at done
      next same =>
        cases done
        simp only [Prod.mk.injEq] at same
        obtain ⟨_, rfl⟩ := same
        exact ⟨rfl, _, rfl⟩
      · cases done
      · cases done
    next low =>
      split at done
      · cases done
      next r found =>
        have word := checkWidth_low low fits
        exact absurd ⟨(Register.offset_of_ofOffset? found).symm, word⟩ (elsewhere r)

end RegisterFile

end Transport

namespace Device

/-- Between two actions: no note is left, and every queue has a bit in the notes. -/
structure Settled (d : Device) : Prop where
  quiet : d.registers.events = .none
  few : d.registers.queues.length ≤ maxQueues

theorem small_of_lt {d : Device} (settled : d.Settled) {queue : UInt16}
    (exists_ : queue.toNat < d.registers.queues.length) : queue < 64 := by
  have few : d.registers.queues.length ≤ 64 := settled.few
  rw [UInt16.lt_iff_toNat_lt]
  exact Nat.lt_of_lt_of_le exists_ few

theorem access_written {d : Device} {value : UInt64} {r : Register} {registers : RegisterFile}
    {machine : Machine}
    (written : d.registers.writeRegister d.machine value.toUInt32 r = some (registers, machine)) :
    d.access (.write value) r.offset 4 = (({ d with registers, machine } : Device).settle, .ok 0) := by
  unfold Device.access
  dsimp only
  rw [RegisterFile.write_register, written]

theorem access_readOnly {d : Device} (quiet : d.registers.events = .none) {value : UInt64}
    {r : Register} (refused : d.registers.writeRegister d.machine value.toUInt32 r = none) :
    d.access (.write value) r.offset 4 = (d, .error (.readOnly r.offset)) := by
  unfold Device.access
  dsimp only
  rw [RegisterFile.write_register, refused]
  dsimp only
  rw [settle_quiet quiet]

theorem settle_makeReady {d : Device} (settled : d.Settled) (v : UInt32) :
    ({ d with registers := d.registers.writeReady v } : Device).settle = d.makeReady v := by
  simp only [RegisterFile.writeReady, makeReady]
  split
  · exact settle_quiet settled.quiet
  next asked =>
    have known : d.registers.config.queue.toNat < d.registers.queues.length := by
      simp only [RegisterFile.selected?, Bool.or_eq_true, decide_eq_true_eq, not_or,
        Option.isNone_iff_eq_none, List.getElem?_eq_none_iff, Nat.not_le] at asked
      exact asked.2
    have passed := settle_ready (d := { d with registers := d.registers.modifySelected .markReady })
      settled.quiet (small_of_lt settled known)
    rw [← settled.quiet] at passed
    exact passed

theorem settle_ring {d : Device} (settled : d.Settled) (v : UInt32) :
    ({ d with registers := d.registers.writeNotify v } : Device).settle = d.ring v := by
  simp only [RegisterFile.writeNotify, ring]
  split
  next known =>
    have few : d.registers.queues.length ≤ 64 := settled.few
    have number : v.toUInt16.toNat < d.registers.queues.length := by
      rw [UInt32.toNat_toUInt16]
      omega
    have passed := settle_notify settled.quiet (small_of_lt settled number)
    rw [← settled.quiet] at passed
    exact passed
  · exact settle_quiet settled.quiet

theorem settle_writeAcknowledge {d : Device} (quiet : d.registers.events = .none) (v : UInt32) :
    ({ d with registers := d.registers.writeAcknowledge v } : Device).settle = d.acknowledge v := by
  unfold RegisterFile.writeAcknowledge acknowledge
  dsimp only
  split
  · exact settle_quiet quiet
  · have passed := settle_acknowledge quiet (.ofBits v)
    rw [← quiet] at passed
    exact passed

theorem followStatus_withConfig (d : Device) {config : State}
    (running : config.status.driverOk = true) :
    (d.withConfig config).followStatus =
      if d.delivered then d.withConfig config else (d.withConfig config).deliver := by
  have filled : (d.withConfig config).registers.config.status = config.status := rfl
  have told : (d.withConfig config).delivered = d.delivered := rfl
  simp only [followStatus, filled, told, Config.Status.not_isEmpty_of_driverOk running, running]
  cases d.delivered <;> rfl

/-- The event pass after a status write that is no reset. -/
theorem settle_writeStatus {d : Device} (quiet : d.registers.events = .none) {v : UInt32}
    (nonzero : v ≠ 0) :
    ({ d with
      registers := (d.registers.writeStatus d.machine v).1
      machine := (d.registers.writeStatus d.machine v).2 } : Device).settle = d.writeStatus v := by
  simp only [RegisterFile.writeStatus, writeStatus, nonzero, if_false]
  rcases d.registers.config.writeStatus_nonzero nonzero with refused | ⟨status, follows, taken⟩
  · rw [refused]
    exact settle_quiet quiet
  · rw [taken]
    cases news : status.driverOk && !d.registers.config.status.driverOk with
    | false => exact settle_quiet quiet
    | true =>
      have running : status.driverOk = true := (Bool.and_eq_true_iff.mp news).1
      have followed : (d.withConfig (d.registers.config.settle status)).followStatus = _ :=
        d.followStatus_withConfig running
      have passed := settle_status (d := d.withConfig (d.registers.config.settle status)) quiet
      rw [followed, ← quiet] at passed
      exact passed

theorem access_writeStatus {d : Device} (quiet : d.registers.events = .none) (value : UInt64) :
    d.access (.write value) Register.status.offset 4 = (d.writeStatus value.toUInt32, .ok 0) := by
  have written : d.access (.write value) Register.status.offset 4 =
      (({ d with
        registers := (d.registers.writeStatus d.machine value.toUInt32).1
        machine := (d.registers.writeStatus d.machine value.toUInt32).2 } : Device).settle,
        .ok 0) :=
    access_written rfl
  by_cases zero : value.toUInt32 = 0
  · -- A reset is carried out twice, by the write and by the event pass.
    have whole : (d.access (.write value) 0x70 4).1 = _ :=
      congrArg (fun both : Device × Except AccessError Unit => both.1) (d.write_zero quiet zero)
    have answered : (d.access (.write value) Register.status.offset 4).2 = .ok 0 := by
      rw [written]
    refine Prod.ext ?_ answered
    simp only [writeStatus, zero, if_true]
    rw [powerOn_eq]
    exact whole
  · rw [written, settle_writeStatus quiet zero]

/-- What a write to a register leaves to do and the event pass does comes to what the register asks
for. -/
theorem access_register {d : Device} (settled : d.Settled) (value : UInt64) (r : Register) :
    d.access (.write value) r.offset 4 =
      if r.isReadOnly then (d, .error (.readOnly r.offset))
      else (d.carryOut value.toUInt32 r, .ok 0) := by
  have quiet := settled.quiet
  cases r with
  | magic | version | deviceId | vendorId | offeredFeatures | queueSizeMax | interruptStatus
  | configGeneration => exact access_readOnly quiet rfl
  | queueReady => exact (access_written rfl).trans (congrArg (·, _) (settle_makeReady settled _))
  | queueNotify => exact (access_written rfl).trans (congrArg (·, _) (settle_ring settled _))
  | interruptAcknowledge =>
    exact (access_written rfl).trans (congrArg (·, _) (settle_writeAcknowledge quiet _))
  | status => exact access_writeStatus quiet value
  | driverFeatures | offeredFeaturesWindow | driverFeaturesWindow | queueSelect | queueSize
  | queueAddress _ _ => exact (access_written rfl).trans (congrArg (·, _) (settle_quiet quiet))

end Device

/-! ### One action -/

/-- The value that an action writes to a register; `none` if it writes no value there. -/
def Action.value? (action : Action) (r : Register) : Option UInt32 :=
  match action with
  | .access (.write value) offset size =>
    if offset = r.offset ∧ size = 4 then some value.toUInt32 else none
  | _ => none

/-- The driver resets the device: it writes zero to the status register. -/
def Action.isReset (action : Action) : Bool :=
  action.value? .status == some 0

/-- The host takes the device down. -/
def Action.isShutdown : Action → Bool
  | .shutdown => true
  | _ => false

theorem Action.isShutdown_eq_false {action : Action} (going : action ≠ .shutdown) :
    action.isShutdown = false := by
  cases action with
  | shutdown => exact absurd rfl going
  | _ => rfl

theorem Action.value?_write (value : UInt64) (r r' : Register) :
    (Action.access (.write value) r.offset 4).value? r' =
      if r = r' then some value.toUInt32 else none := by
  by_cases same : r = r'
  · simp [value?, same]
  · have apart : r.offset ≠ r'.offset := fun offsets => same (Register.offset_inj offsets)
    simp [value?, same, apart]

theorem Action.isReset_write (value : UInt64) (r : Register) :
    (Action.access (.write value) r.offset 4).isReset = true ↔ r = .status ∧ value.toUInt32 = 0 := by
  rw [isReset, value?_write]
  by_cases status : r = .status
  · simp [status]
  · simp [status]

/-- A zero written to the status register would be a reset. -/
theorem Action.ne_zero_of_write {value : UInt64} {r : Register}
    (noReset : (Action.access (.write value) r.offset 4).isReset = false) (status : r = .status) :
    value.toUInt32 ≠ 0 := by
  intro zero
  rw [(isReset_write value r).mpr ⟨status, zero⟩] at noReset
  cases noReset

/-- The driver has no part in the action, and the device goes on. -/
def Action.isBeside : Action → Bool
  | .access _ _ _ | .shutdown => false
  | _ => true

theorem Action.value?_beside {action : Action} (beside : action.isBeside = true) (r : Register) :
    action.value? r = none := by
  cases action <;> first | rfl | cases beside

namespace Device

/-- Everything that an action can make of a device. -/
inductive Happens (d : Device) : Action → Device → Prop
  | register (value : UInt64) (r : Register) :
    Happens d (.access (.write value) r.offset 4) (d.carryOut value.toUInt32 r)
  | shutdown : Happens d .shutdown d.shutdown
  | aside {action : Action} {d' : Device} (elsewhere : ∀ r, action.value? r = none)
    (going : action ≠ .shutdown) (aside : Aside d d') : Happens d action d'

theorem carryOut_readOnly (d : Device) (v : UInt32) {r : Register} (readOnly : r.isReadOnly = true) :
    d.carryOut v r = d := by
  cases r <;> first | rfl | cases readOnly

/-- Everything that an access can make of a device: a write to a register is carried out, and any
other access changes the configuration block at most. -/
inductive Accessed (d : Device) : Access → UInt64 → UInt8 → Device → Prop
  | register (value : UInt64) (r : Register) :
    Accessed d (.write value) r.offset 4 (d.carryOut value.toUInt32 r)
  | beside {access : Access} {offset : UInt64} {size : UInt8} (block : Config.Block)
    (elsewhere : ∀ r, (Action.access access offset size).value? r = none) :
    Accessed d access offset size { d with registers.config.block := block }

theorem accessed {d : Device} (settled : d.Settled) (access : Access) (offset : UInt64)
    (size : UInt8) : Accessed d access offset size (d.access access offset size).1 := by
  cases access with
  | read =>
    rw [show (d.access .read offset size).1 = d.settle from rfl, settle_quiet settled.quiet]
    exact .beside d.registers.config.block fun _ => rfl
  | write value =>
    by_cases named : ∃ r : Register, offset = r.offset ∧ size = 4
    · obtain ⟨r, rfl, rfl⟩ := named
      have whole := access_register settled value r
      have done : (d.access (.write value) r.offset 4).1 = d.carryOut value.toUInt32 r := by
        rw [whole]
        split
        next readOnly => exact (d.carryOut_readOnly _ readOnly).symm
        · rfl
      rw [done]
      exact .register value r
    -- No register is named, so the write is refused or goes to the configuration block.
    · have elsewhere (r : Register) : ¬ (offset = r.offset ∧ size = 4) :=
        fun here => named ⟨r, here⟩
      have other (r : Register) : (Action.access (.write value) offset size).value? r = none :=
        if_neg (elsewhere r)
      unfold Device.access
      dsimp only
      split
      · rw [settle_quiet settled.quiet]
        exact .beside d.registers.config.block other
      next registers machine written =>
        obtain ⟨rfl, block, rfl⟩ := RegisterFile.write_elsewhere elsewhere written
        have still := settle_quiet (d := { d with registers.config.block := block }) settled.quiet
        dsimp only at still ⊢
        rw [still]
        exact .beside block other

theorem happens_access {d : Device} (settled : d.Settled) (access : Access) (offset : UInt64)
    (size : UInt8) : Happens d (.access access offset size) (d.access access offset size).1 := by
  have accessed := accessed settled access offset size
  generalize (d.access access offset size).1 = d' at accessed ⊢
  cases accessed with
  | register value r => exact .register value r
  | beside block elsewhere =>
    refine .aside elsewhere (fun same => nomatch same) ?_
    exact ⟨⟨⟨rfl, rfl, rfl, rfl⟩, rfl, rfl⟩, ⟨block, rfl⟩, rfl⟩

theorem aside_step {d : Device} (settled : d.Settled) {action : Action}
    (beside : action.isBeside = true) : Aside d (d.step action).1 := by
  cases action with
  | access access offset size => cases beside
  | shutdown => cases beside
  | settle =>
    rw [show (d.step .settle).1 = d.settle from rfl, settle_quiet settled.quiet]
    exact .refl d
  | attach replies => exact aside_deals (deals_attachIommu d replies)
  | detach => exact aside_deals (deals_detachIommu d)
  | map replies cls iova len rights =>
    exact aside_deals (deals_mapClass d replies cls iova len rights)
  | unmap replies cls => exact aside_deals (deals_unmapClass d replies cls)
  | _ => exact aside_works (works_step d rfl)

theorem step_happens {d : Device} (settled : d.Settled) (action : Action) :
    Happens d action (d.step action).1 := by
  cases beside : action.isBeside with
  | true =>
    have going : action ≠ .shutdown := by
      rintro rfl
      cases beside
    exact .aside (Action.value?_beside beside) going (aside_step settled beside)
  | false =>
    cases action with
    | access access offset size => exact happens_access settled access offset size
    | shutdown => exact .shutdown
    | _ => cases beside

/-! ### Runs -/

theorem settled_new {profile : Profile} {options : Options} {ram : Memory.Ram} {d : Device}
    (built : Device.new profile options ram = .ok d) : d.Settled := by
  refine ⟨quiet_new built, ?_⟩
  have few : ¬ maxQueues < profile.queues := by
    intro many
    simp only [Device.new, many, if_true] at built
    split at built <;> cases built
  rw [new_eq_ok built]
  simpa [RegisterFile.new] using Nat.le_of_not_lt few

theorem settled_step {d : Device} (settled : d.Settled) (action : Action) :
    (d.step action).1.Settled := by
  have steady := d.steady_step settled.quiet action
  have count : (d.step action).1.registers.queues.length = d.registers.queues.length :=
    congrArg (fun fixed => fixed.2.1.2.2.1) steady.fixed
  exact ⟨steady.events.trans settled.quiet, count ▸ settled.few⟩

theorem settled_run {d : Device} (settled : d.Settled) (actions : List Action) :
    (d.run actions).1.Settled :=
  run_keeps (P := Settled) (fun _ action now => settled_step now action) actions settled

end Device

end VirtioMmio
