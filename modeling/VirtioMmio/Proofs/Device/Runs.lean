import VirtioMmio.Proofs.Device.Dealings
import VirtioMmio.Proofs.Machine.Requests
import VirtioMmio.Proofs.Memory.Regions
import VirtioMmio.Proofs.Queue.Chains

/-!
Everything that can happen to a device, one action at a time. `Device.run` strings actions together;
a state is reachable if a run from a device at power-on leads to it. Main results: `steady_run`, by
which no run changes what was settled when the device was built or leaves a note of the driver's
writes behind, and `wellFormed_run`.
-/

namespace VirtioMmio

open Backend (BackendCall)
open Device (Replies)
open Queue (Registers Virtqueue)
open Transport (RegisterFile)

/-- One thing that happens to a device: an access of the driver, work of the backend, or a change
that the host or the guest makes to memory. -/
inductive Action where
  | access (access : Access) (offset : UInt64) (size : UInt8)
  | settle
  | request (number : Nat) (request : Request)
  | sessionRaise (number : Nat)
  | sessionClear (number : Nat)
  | raise
  | clear
  | pending
  | revise (offset : Nat) (bytes : List UInt8)
  | shutdown
  | attach (replies : Replies)
  | detach
  | map (replies : Replies) (cls : UInt16) (iova : UInt64) (len : Nat) (rights : Memory.Rights)
  | unmap (replies : Replies) (cls : UInt16)
  | poke (addr : Nat) (bytes : List UInt8)
  | protect (base : UInt64) (rights : Memory.Rights)

inductive Response where
  | silent
  | access (outcome : Except AccessError UInt64)
  | answer (answer : Answer)
  | interrupt (intid : Option UInt32)
  | config (outcome : Except ConfigError Unit)
  | iommu (outcome : Except IommuError Unit)
  | mapping (outcome : Except IommuError Dma.Mapping)
  | found (found : Bool)

namespace Device

/-- The device after an action, and what was seen of it. -/
def step (d : Device) : Action → Device × Response
  | .access access offset size => (d.access access offset size).map id .access
  | .settle => (d.settle, .silent)
  | .request number request =>
    let (machine, answer) := d.machine.perform number request
    ({ d with machine }, .answer answer)
  | .sessionRaise number => (d.sessionRaise number, .silent)
  | .sessionClear number => (d.sessionClear number, .silent)
  | .raise => (d.raiseInterrupt, .silent)
  | .clear => (d.clearInterrupt, .silent)
  | .pending => (d, .interrupt d.pendingInterrupt)
  | .revise offset bytes =>
    match d.reviseConfig offset bytes with
    | .error e => (d, .config (.error e))
    | .ok d => (d, .config (.ok ()))
  | .shutdown => (d.shutdown, .silent)
  | .attach replies => (d.attachIommu replies).map id .iommu
  | .detach => d.detachIommu.map id .iommu
  | .map replies cls iova len rights => (d.mapClass replies cls iova len rights).map id .mapping
  | .unmap replies cls => (d.unmapClass replies cls).map id .iommu
  | .poke addr bytes =>
    ({ d with machine := d.machine.withStore (d.machine.ram.store.write addr bytes) }, .silent)
  | .protect base rights =>
    match d.machine.ram.setRights base rights with
    | none => (d, .found false)
    | some ram => ({ d with machine.ram := ram }, .found true)

/-- The device after some actions, and what was seen of each. -/
def run (d : Device) : List Action → Device × List Response
  | [] => (d, [])
  | action :: later =>
    let (d, response) := d.step action
    let (d, responses) := d.run later
    (d, response :: responses)

theorem run_append (d : Device) (first second : List Action) :
    d.run (first ++ second) =
      (((d.run first).1.run second).1, (d.run first).2 ++ ((d.run first).1.run second).2) := by
  induction first generalizing d with
  | nil => rfl
  | cons action first ih =>
    simp only [List.cons_append, run, ih]

/-- What every action keeps, every run keeps. -/
theorem run_keeps {P : Device → Prop} (each : ∀ d action, P d → P (d.step action).1)
    (actions : List Action) {d : Device} (start : P d) : P (d.run actions).1 := by
  induction actions generalizing d with
  | nil => exact start
  | cons action later ih => exact ih (each d action start)

end Device

/-! ### Work beside the registers -/

/-- The action is work of the backend, or a change that the host or the guest makes to the
configuration block or to memory. -/
def Action.isWork : Action → Bool
  | .request _ _ | .sessionRaise _ | .sessionClear _ | .raise | .clear | .pending | .revise _ _
  | .poke _ _ | .protect _ _ => true
  | _ => false

theorem Config.State.reviseBlock_eq_ok {s s' : Config.State} {offset : Nat} {bytes : List UInt8}
    {tell : Bool} (done : s.reviseBlock offset bytes = .ok (tell, s')) :
    ∃ block, s' = { s with block } ∧ block.writable = s.block.writable := by
  simp only [reviseBlock, Config.Block.revise] at done
  split at done
  · cases done
  next changed block revised =>
    cases done
    refine ⟨block, rfl, ?_⟩
    split at revised
    · cases revised
    · split at revised <;> (cases revised; rfl)

namespace Device

/-- What such work comes to. -/
inductive Works (d : Device) : Device → Prop
  | idle : Works d d
  | served (number : Nat) (request : Request) :
    Works d { d with machine := (d.machine.perform number request).1 }
  | raised : Works d d.raiseInterrupt
  | cleared : Works d d.clearInterrupt
  | revised (block : Config.Block) (same : block.writable = d.registers.config.block.writable) :
    Works d { d with registers.config.block := block }
  | announced (block : Config.Block) (same : block.writable = d.registers.config.block.writable) :
    Works d ({ d with registers.config.block := block }.modifyMachine (·.raiseLine .configOnly))
  | memory (ram : Memory.Ram)
    (same : ram.regions.map Memory.Region.place = d.machine.ram.regions.map Memory.Region.place) :
    Works d { d with machine.ram := ram }

theorem works_step (d : Device) {action : Action} (work : action.isWork = true) :
    Works d (d.step action).1 := by
  cases action with
  | request number request => exact .served number request
  | sessionRaise number =>
    show Works d (d.sessionRaise number)
    simp only [sessionRaise]
    split
    · split
      · exact .idle
      · exact .raised
    · exact .idle
  | sessionClear number =>
    show Works d (d.sessionClear number)
    simp only [sessionClear]
    split
    · split
      · exact .idle
      · exact .cleared
    · exact .idle
  | raise => exact .raised
  | clear => exact .cleared
  | pending => exact .idle
  | revise offset bytes =>
    simp only [step, reviseConfig]
    cases revised : d.registers.config.reviseBlock offset bytes with
    | error e => exact .idle
    | ok outcome =>
      obtain ⟨tell, config⟩ := outcome
      obtain ⟨block, rfl, same⟩ := Config.State.reviseBlock_eq_ok revised
      -- The driver is told only while the device runs.
      cases tell with
      | false => exact .revised block same
      | true => exact .announced block same
  | poke addr bytes => exact .memory _ rfl
  | protect base rights =>
    simp only [step]
    cases done : d.machine.ram.setRights base rights with
    | none => exact .idle
    | some ram => exact .memory ram (Memory.Ram.places_setRights done)
  | _ => cases work

end Device

/-! ### What stands still in the machine -/

namespace Machine

/-- The interrupt number, and where the regions of guest RAM lie. -/
def fixed (m : Machine) : UInt32 × List (UInt64 × Nat) :=
  (m.line.intid, m.ram.regions.map Memory.Region.place)

@[simp] theorem fixed_raiseLine (m : Machine) (causes : Interrupt.Causes) :
    (m.raiseLine causes).fixed = m.fixed := by
  simp only [raiseLine, Interrupt.Line.raise]
  split <;> rfl

@[simp] theorem fixed_clearLine (m : Machine) (causes : Interrupt.Causes) :
    (m.clearLine causes).fixed = m.fixed := rfl

@[simp] theorem fixed_lowerLine (m : Machine) : m.lowerLine.fixed = m.fixed := rfl

@[simp] theorem fixed_modifyQueue (m : Machine) (number : Nat) (f : Virtqueue → Virtqueue) :
    (m.modifyQueue number f).fixed = m.fixed := rfl

@[simp] theorem fixed_retireLive (m : Machine) (r : Registers) :
    (m.retireLive r).fixed = m.fixed := by
  simp only [retireLive]
  split <;> rfl

@[simp] theorem fixed_foldl_retireLive (m : Machine) (queues : List Registers) :
    (queues.foldl retireLive m).fixed = m.fixed := by
  induction queues generalizing m with
  | nil => rfl
  | cons r queues ih => rw [List.foldl_cons, ih, fixed_retireLive]

@[simp] theorem fixed_fail (m : Machine) (number : Nat) : (m.fail number).fixed = m.fixed := by
  simp only [fail]
  split
  · rfl
  · split
    · rfl
    · rw [fixed_raiseLine, fixed_modifyQueue]

theorem fixed_bringUp {m m' : Machine} {r r' : Registers} {index max : UInt16} {indirect : Bool}
    (done : m.bringUp r index max indirect = .ok (r', m')) : m'.fixed = m.fixed := by
  simp only [bringUp] at done
  split at done
  · cases done
    rfl
  · split at done
    · cases done
    · split at done
      · cases done
      · cases done
        rfl

theorem Outcome.fixed {number : Nat} {m m' : Machine} (outcome : Outcome number m m') :
    m'.fixed = m.fixed := by
  cases outcome with
  | failed => exact fixed_fail m number
  | _ => rfl

@[simp] theorem fixed_perform (m : Machine) (number : Nat) (request : Request) :
    (m.perform number request).1.fixed = m.fixed := by
  cases found : m.queues[number]? with
  | none => rw [perform_absent found]
  | some q =>
    obtain ⟨ram, within, outcome⟩ := perform_outcome found request
    rw [outcome.fixed]
    simp only [fixed, within.regions]
    rfl

end Machine

/-! ### What stands still in the registers -/

namespace Transport.RegisterFile

/-- Everything about the registers that was settled when the device was built. -/
def fixed (t : RegisterFile) : DeviceId × UInt16 × Nat × UInt64 × List Config.Span :=
  (t.id, t.maxQueueSize, t.queues.length, t.config.offered, t.config.block.writable)

theorem fixed_resetQueues (t : RegisterFile) (m : Machine) :
    (t.resetQueues m).1.fixed = t.fixed ∧ (t.resetQueues m).2.fixed = m.fixed := by
  simp [resetQueues, fixed]

theorem fixed_modifySelected (t : RegisterFile) (f : Registers → Registers) :
    (t.modifySelected f).fixed = t.fixed := by
  simp [modifySelected, fixed]

theorem fixed_writeStatus (t : RegisterFile) (m : Machine) (v : UInt32) :
    (t.writeStatus m v).1.fixed = t.fixed ∧ (t.writeStatus m v).2.fixed = m.fixed := by
  simp only [writeStatus, Config.State.writeStatus]
  by_cases zero : v = 0
  · simp only [zero, if_true]
    exact fixed_resetQueues { t with config := t.config.reset } m
  · simp only [zero, if_false]
    cases (Config.Status.ofBits? v).bind t.config.status.write? with
    | none => exact ⟨rfl, rfl⟩
    | some status =>
      dsimp only
      split <;> simp_all [fixed]

theorem fixed_writeRegister {t t' : RegisterFile} {m m' : Machine} {v : UInt32}
    {r : Transport.Register} (done : t.writeRegister m v r = some (t', m')) :
    t'.fixed = t.fixed ∧ m'.fixed = m.fixed := by
  -- Registers that are only read drop out here.
  cases r <;> simp only [writeRegister, reduceCtorEq, Option.some.injEq, Prod.mk.injEq] at done
  case status =>
    have both := fixed_writeStatus t m v
    rw [done] at both
    exact both
  all_goals obtain ⟨rfl, rfl⟩ := done
  case driverFeatures =>
    refine ⟨?_, rfl⟩
    simp only [Config.State.writeFeatures]
    split
    · rfl
    · split
      · rfl
      · split <;> rfl
  case queueSize => exact ⟨fixed_modifySelected t _, rfl⟩
  case queueReady =>
    refine ⟨?_, rfl⟩
    simp only [writeReady]
    split
    · rfl
    · exact fixed_modifySelected t _
  case queueNotify =>
    refine ⟨?_, rfl⟩
    simp only [writeNotify]
    split <;> rfl
  case interruptAcknowledge =>
    refine ⟨?_, rfl⟩
    unfold writeAcknowledge
    dsimp only
    split <;> rfl
  case queueAddress => exact ⟨fixed_modifySelected t _, rfl⟩
  all_goals exact ⟨rfl, rfl⟩

theorem writable_write (b : Config.Block) (offset size value : Nat) :
    (b.write offset size value).2.writable = b.writable := by
  unfold Config.Block.write
  split
  · rfl
  · split
    · rfl
    · dsimp only
      split <;> rfl

theorem fixed_write {t t' : RegisterFile} {m m' : Machine} {offset : UInt64} {size : UInt8}
    {value : UInt64} (done : t.write m offset size value = .ok (t', m')) :
    t'.fixed = t.fixed ∧ m'.fixed = m.fixed := by
  simp only [write] at done
  split at done
  · cases done
  · split at done
    · have writable := writable_write t.config.block (offset - Transport.configSpace).toNat
        size.toNat value.toNat
      unfold Config.State.writeBlock at done
      dsimp only at done
      split at done
      next config same =>
        cases done
        simp only [Prod.mk.injEq] at same
        obtain ⟨_, rfl⟩ := same
        exact ⟨by simp only [fixed, writable], rfl⟩
      · cases done
      · cases done
    · split at done
      · cases done
      · split at done
        next written same =>
          cases done
          exact fixed_writeRegister same
        · cases done

end Transport.RegisterFile

/-! ### What stands still in the device -/

namespace Device

/-- Everything that was settled when the device was built. -/
def fixed (d : Device) :
    UInt64 × (DeviceId × UInt16 × Nat × UInt64 × List Config.Span) × UInt32 × List (UInt64 × Nat) :=
  (d.base, d.registers.fixed, d.machine.fixed)

/-- A change of a device that leaves the driver's notes and all that was settled alone. -/
structure Steady (d d' : Device) : Prop where
  fixed : d'.fixed = d.fixed
  events : d'.registers.events = d.registers.events

namespace Steady

theorem refl (d : Device) : Steady d d := ⟨rfl, rfl⟩

theorem trans {d d' d'' : Device} (first : Steady d d') (second : Steady d' d'') : Steady d d'' :=
  ⟨second.fixed.trans first.fixed, second.events.trans first.events⟩

theorem foldl {α : Type} {f : Device → α → Device} (each : ∀ d x, Steady d (f d x)) (d : Device)
    (list : List α) : Steady d (list.foldl f d) := by
  induction list generalizing d with
  | nil => exact .refl d
  | cons x list ih => exact (each d x).trans (ih _)

end Steady

theorem steady_modifyMachine (d : Device) {f : Machine → Machine}
    (same : (f d.machine).fixed = d.machine.fixed) : Steady d (d.modifyMachine f) :=
  ⟨by simp only [fixed, modifyMachine, same], rfl⟩

theorem steady_clearLine (d : Device) (causes : Interrupt.Causes) :
    Steady d (d.modifyMachine (·.clearLine causes)) :=
  steady_modifyMachine d (Machine.fixed_clearLine d.machine causes)

theorem steady_tellBackend (d : Device) (calls : List BackendCall) :
    Steady d (d.tellBackend calls) :=
  ⟨rfl, rfl⟩

theorem steady_endSession (d : Device) : Steady d d.endSession := by
  simp only [endSession]
  split <;> exact ⟨rfl, rfl⟩

theorem steady_bringUpQueue (d : Device) (index : UInt16) : Steady d (d.bringUpQueue index) := by
  have put (r : Registers) {machine : Machine} (same : machine.fixed = d.machine.fixed) :
      Steady d { d with
        machine
        registers := { d.registers with queues := d.registers.queues.set index.toNat r } } :=
    ⟨by simp [fixed, RegisterFile.fixed, same], rfl⟩
  unfold bringUpQueue
  split
  · exact .refl d
  · dsimp only
    split
    · exact .refl d
    · split
      · exact put _ rfl
      · split
        · exact put _ rfl
        next done => exact put _ (Machine.fixed_bringUp done)

theorem steady_powerOn (d : Device) : Steady d d.powerOn := by
  refine (steady_endSession d).trans ⟨?_, rfl⟩
  simp only [powerOn]
  generalize d.endSession = e
  simp [fixed, RegisterFile.reset, RegisterFile.resetQueues, RegisterFile.fixed, Config.State.reset]

theorem steady_deliver (d : Device) : Steady d d.deliver := by
  unfold deliver
  dsimp only
  split
  · exact ⟨rfl, rfl⟩
  · exact ⟨rfl, rfl⟩

theorem steady_followStatus (d : Device) : Steady d d.followStatus := by
  simp only [followStatus]
  split
  · exact (steady_powerOn d).trans (steady_tellBackend _ _)
  · split
    · exact steady_deliver d
    · exact .refl d

theorem steady_notify (d : Device) (index : UInt16) : Steady d (d.notify index) := by
  unfold notify
  dsimp only
  split
  · exact steady_tellBackend d _
  · exact .refl d

/-- One part of the event pass. -/
def stage (flag : Bool) (f : Device → Device) (d : Device) : Device :=
  if flag then f d else d

theorem settle_eq (d : Device) :
    d.settle = stage d.registers.events.notifyFlag
      (fun d' => d.registers.events.notify.toList.foldl notify d')
      (stage d.registers.events.acknowledgeFlag
        (·.modifyMachine (·.clearLine d.registers.events.acknowledge))
        (stage d.registers.events.statusFlag followStatus
          (stage d.registers.events.readyFlag
            (fun d' => d.registers.events.readied.toList.foldl bringUpQueue d')
            { d with registers.events := .none }))) := rfl

theorem steady_stage (flag : Bool) {f : Device → Device} (each : ∀ d, Steady d (f d)) (d : Device) :
    Steady d (stage flag f d) := by
  cases flag with
  | false => exact .refl d
  | true => exact each d

/-- After the event pass no note is left. -/
theorem settle_spec (d : Device) :
    d.settle.fixed = d.fixed ∧ d.settle.registers.events = .none := by
  have taken : Steady { d with registers.events := .none } d.settle := by
    -- From the last stage back to the first.
    rw [settle_eq]
    refine .trans ?_ (steady_stage _ (fun d' => Steady.foldl steady_notify d' _) _)
    refine .trans ?_ (steady_stage _ (fun d' => steady_clearLine d' _) _)
    refine .trans ?_ (steady_stage _ steady_followStatus _)
    exact steady_stage _ (fun d' => Steady.foldl steady_bringUpQueue d' _) _
  exact ⟨taken.fixed, taken.events⟩

theorem steady_works {d d' : Device} (works : Works d d') : Steady d d' := by
  have revised (block : Config.Block)
      (same : block.writable = d.registers.config.block.writable) :
      Steady d { d with registers.config.block := block } :=
    ⟨by simp only [fixed, RegisterFile.fixed, same], rfl⟩
  cases works with
  | idle => exact .refl d
  | served number request =>
    exact steady_modifyMachine d (f := fun m => (m.perform number request).1)
      (Machine.fixed_perform d.machine number request)
  | raised => exact steady_modifyMachine d (Machine.fixed_raiseLine d.machine _)
  | cleared => exact steady_modifyMachine d (Machine.fixed_lowerLine d.machine)
  | revised block same => exact revised block same
  | announced block same =>
    exact (revised block same).trans (steady_modifyMachine _ (f := (·.raiseLine .configOnly))
      (Machine.fixed_raiseLine _ _))
  | memory ram same =>
    refine ⟨?_, rfl⟩
    simp only [fixed, Machine.fixed, same]

theorem steady_shutdown (d : Device) : Steady d d.shutdown := by
  unfold shutdown
  dsimp only
  have retired := steady_modifyMachine d.endSession
    (f := fun m => d.endSession.registers.queues.foldl Machine.retireLive m)
    (Machine.fixed_foldl_retireLive _ _)
  exact ((steady_endSession d).trans retired).trans ⟨rfl, rfl⟩

/-- Whatever is agreed with an IOMMU. -/
theorem steady_deals {d d' : Device} (deals : Deals d d') : Steady d d' := by
  obtain ⟨calls, dma, rfl, _⟩ := deals
  exact ⟨rfl, rfl⟩

/-! ### Actions and runs -/

theorem fixed_access (d : Device) (access : Access) (offset : UInt64) (size : UInt8) :
    (d.access access offset size).1.fixed = d.fixed ∧
      (d.access access offset size).1.registers.events = .none := by
  cases access with
  | read => exact d.settle_spec
  | write value =>
    unfold Device.access
    dsimp only
    split
    · exact d.settle_spec
    next registers machine written =>
      obtain ⟨same, still⟩ := RegisterFile.fixed_write written
      obtain ⟨pass, none⟩ := settle_spec { d with registers, machine }
      refine ⟨pass.trans ?_, none⟩
      simp only [fixed, same, still]

/-- Between actions no note of the driver's writes is left, and none changes what was settled. -/
theorem steady_step (d : Device) (quiet : d.registers.events = .none) (action : Action) :
    Steady d (d.step action).1 := by
  cases action with
  | access access offset size =>
    obtain ⟨same, none⟩ := d.fixed_access access offset size
    exact ⟨same, none.trans quiet.symm⟩
  | settle =>
    obtain ⟨same, none⟩ := d.settle_spec
    exact ⟨same, none.trans quiet.symm⟩
  | shutdown => exact steady_shutdown d
  | attach replies => exact steady_deals (deals_attachIommu d replies)
  | detach => exact steady_deals (deals_detachIommu d)
  | map replies cls iova len rights =>
    exact steady_deals (deals_mapClass d replies cls iova len rights)
  | unmap replies cls => exact steady_deals (deals_unmapClass d replies cls)
  | _ => exact steady_works (works_step d rfl)

theorem steady_run (d : Device) (quiet : d.registers.events = .none) (actions : List Action) :
    Steady d (d.run actions).1 := by
  -- A step is steady only if no note is left, so both have to be carried along.
  have kept := run_keeps (P := fun d' => Steady d d' ∧ d'.registers.events = .none)
    (fun d' action now => by
      have next := steady_step d' now.2 action
      exact ⟨now.1.trans next, next.events.trans now.2⟩)
    actions ⟨.refl d, quiet⟩
  exact kept.1

/-- A device that was just built has nothing to its name. -/
theorem new_eq_ok {profile : Profile} {options : Options} {ram : Memory.Ram} {d : Device}
    (built : Device.new profile options ram = .ok d) :
    d = {
      base := options.base
      registers := .new profile.id (queueLimit options profile) profile.queues
        (.new (offeredFeatures options profile) profile.config profile.writable)
      machine := { ram, dma := .unmapped profile.queues, line := ⟨options.intid, .nothing⟩ } } := by
  simp only [Device.new] at built
  split at built
  · cases built
  · split at built
    · cases built
    · split at built
      · cases built
      · split at built
        · cases built
        · exact (Except.ok.inj built).symm

theorem quiet_new {profile : Profile} {options : Options} {ram : Memory.Ram} {d : Device}
    (built : Device.new profile options ram = .ok d) : d.registers.events = .none := by
  rw [new_eq_ok built]
  rfl

/-- Guest RAM never loses its shape. -/
theorem wellFormed_run {profile : Profile} {options : Options} {ram : Memory.Ram} {d : Device}
    (built : Device.new profile options ram = .ok d) (sound : ram.WellFormed)
    (actions : List Action) : (d.run actions).1.machine.ram.WellFormed := by
  have places := congrArg (fun fixed => fixed.2.2.2) (d.steady_run (quiet_new built) actions).fixed
  have same : d.machine.ram = ram := by rw [new_eq_ok built]
  rw [← same] at sound
  exact sound.of_places places

/-! A device whose driver set up one queue behind an IOMMU, which lays `0x1000 ..< 0x1f00` over
guest RAM from `0x1100` on. -/

def sampleProfile : Profile where
  id := .block
  features := 0
  queues := 1
  config := [1, 2, 3, 4]

def sampleOptions : Options where
  base := 0xa000000
  intid := 48

def sampleWindow : Dma.Mapping where
  iova := 0x1000
  len := 0xf00
  gpa := 0x1100
  rights := .both

def sampleReplies : Replies where
  iommuMap _ _ _ := .ok sampleWindow

def sampleActions : List Action :=
  [.attach sampleReplies, .map sampleReplies 0 0x1000 0xf00 .both] ++
    [(0x70, 1), (0x70, 3), (0x70, 11), (0x30, 0), (0x38, 4), (0x80, 0x1000), (0x90, 0x1100),
      (0xa0, 0x1200), (0x44, 1), (0x70, 15)].map fun (offset, value) =>
        .access (.write value) offset 4

def sampleStart : Device where
  base := 0xa000000
  registers := .new .block 256 1 (.new version1Feature [1, 2, 3, 4] [])
  machine := { ram := Machine.sampleRam, dma := .unmapped 1, line := ⟨48, .nothing⟩ }

theorem sampleStart_built :
    Device.new sampleProfile sampleOptions Machine.sampleRam = .ok sampleStart := by
  rfl

def sampleDevice : Device :=
  (sampleStart.run sampleActions).1

end Device

end VirtioMmio
