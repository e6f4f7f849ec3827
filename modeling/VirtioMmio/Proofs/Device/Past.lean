import VirtioMmio.Proofs.Device.Runs
import VirtioMmio.Proofs.Machine.Past

/-!
Devices that went through something before. `Device.after` puts a past before everything that a
device holds: its handles get higher numbers, its record of calls gets longer. Main result:
`run_after`. Nothing that a driver or the holder of a new handle does can tell the difference.
-/

namespace VirtioMmio

open Backend (BackendCall Call Session)
open Device (Replies)
open Queue (Registers Virtqueue)
open Transport (RegisterFile)

/-! ### Registers -/

namespace Transport.RegisterFile

def after (t : RegisterFile) (p : Past) : RegisterFile :=
  { t with queues := t.queues.map p.registers }

variable (p : Past)

@[simp] theorem config_after (t : RegisterFile) : (t.after p).config = t.config := rfl

theorem selected?_after (t : RegisterFile) :
    (t.after p).selected? = t.selected?.map p.registers := by
  simp [selected?, after]

theorem modifySelected_after (t : RegisterFile) {f : Registers → Registers}
    (commutes : ∀ r, f (p.registers r) = p.registers (f r)) :
    (t.after p).modifySelected f = (t.modifySelected f).after p := by
  simp only [modifySelected, after, Machine.modify_map p.registers f commutes]

theorem anyFailed_after (t : RegisterFile) (m : Machine) :
    (t.after p).anyFailed (m.after p) = t.anyFailed m := by
  have each (r : Registers) :
      ((p.registers r).live.bind fun number => (m.after p).queues[number]?) =
        r.live.bind fun number => m.queues[number]? := by
    simp only [Past.registers]
    cases r.live with
    | none => rfl
    | some number => exact Machine.getElem?_queues_after p m number
  simp only [anyFailed, after, List.any_map, Function.comp_def, each]

theorem status_after (t : RegisterFile) (m : Machine) :
    (t.after p).status (m.after p) = t.status m := by
  simp only [status, anyFailed_after]
  rfl

theorem resetQueues_after (t : RegisterFile) (m : Machine) :
    (t.after p).resetQueues (m.after p) =
      (t.resetQueues m).map (·.after p) (·.after p) := by
  have retired := Machine.foldl_retireLive_after p m t.queues
  simp only [resetQueues, after, retired, List.map_map, Prod.map]
  rfl

theorem reset_after (t : RegisterFile) (m : Machine) :
    (t.after p).reset (m.after p) = (t.reset m).map (·.after p) (·.after p) :=
  resetQueues_after p { t with config := t.config.reset } m

theorem read_after (t : RegisterFile) (m : Machine) (offset : UInt64) (size : UInt8) :
    (t.after p).read (m.after p) offset size = t.read m offset size := by
  have register (r : Transport.Register) :
      (t.after p).readRegister (m.after p) r = t.readRegister m r := by
    cases r with
    | queueSizeMax => simp only [readRegister, selected?_after, Option.isSome_map]; rfl
    | queueReady =>
      have isUp : (t.selected?.map p.registers).map (·.isUp) = t.selected?.map (·.isUp) := by
        rw [Option.map_map]
        exact congrArg (Option.map · t.selected?) (funext p.isUp_registers)
      simp only [readRegister, selected?_after, isUp]
    | status => simp only [readRegister, status_after]
    | _ => rfl
  simp only [read, register]
  rfl

theorem writeStatus_after (t : RegisterFile) (m : Machine) (v : UInt32) :
    (t.after p).writeStatus (m.after p) v = (t.writeStatus m v).map (·.after p) (·.after p) := by
  simp only [writeStatus]
  rw [config_after]
  obtain ⟨outcome, config⟩ := t.config.writeStatus v
  cases outcome with
  | reset =>
    have reset := resetQueues_after p { t with config } m
    exact congrArg (fun both => ({ both.1 with events := both.1.events.noteStatus }, both.2)) reset
  | accepted driverOk => cases driverOk <;> rfl
  | rejected => rfl

theorem writeReady_after (t : RegisterFile) (v : UInt32) :
    (t.after p).writeReady v = (t.writeReady v).after p := by
  have none : (t.after p).selected?.isNone = t.selected?.isNone := by
    rw [selected?_after, Option.isNone_map]
  have marked := modifySelected_after p t (f := .markReady) fun _ => rfl
  unfold writeReady
  rw [none]
  split
  · rfl
  · dsimp only
    rw [marked]
    rfl

theorem writeNotify_after (t : RegisterFile) (v : UInt32) :
    (t.after p).writeNotify v = (t.writeNotify v).after p := by
  have count : (t.after p).queues.length = t.queues.length := by simp [after]
  simp only [writeNotify]
  rw [count]
  split <;> rfl

theorem writeAcknowledge_after (t : RegisterFile) (v : UInt32) :
    (t.after p).writeAcknowledge v = (t.writeAcknowledge v).after p := by
  unfold writeAcknowledge
  dsimp only
  split <;> rfl

theorem writeRegister_after (t : RegisterFile) (m : Machine) (v : UInt32) (r : Transport.Register) :
    (t.after p).writeRegister (m.after p) v r =
      (t.writeRegister m v r).map (Prod.map (·.after p) (·.after p)) := by
  cases r with
  | queueSize =>
    have sized := modifySelected_after p t (f := (·.writeSize v)) fun r => by
      simp only [Registers.writeSize]
      rw [p.isUp_registers]
      split <;> rfl
    exact congrArg (fun t => some (t, m.after p)) sized
  | queueAddress ring half =>
    have placed := modifySelected_after p t (f := (·.writeAddr ring half v)) fun r => by
      simp only [Registers.writeAddr]
      rw [p.isUp_registers]
      split
      · rfl
      · cases ring <;> rfl
    exact congrArg (fun t => some (t, m.after p)) placed
  | queueReady => exact congrArg (fun t => some (t, m.after p)) (writeReady_after p t v)
  | queueNotify => exact congrArg (fun t => some (t, m.after p)) (writeNotify_after p t v)
  | interruptAcknowledge =>
    exact congrArg (fun t => some (t, m.after p)) (writeAcknowledge_after p t v)
  | status => exact congrArg some (writeStatus_after p t m v)
  | _ => rfl

theorem write_after (t : RegisterFile) (m : Machine) (offset : UInt64) (size : UInt8)
    (value : UInt64) :
    (t.after p).write (m.after p) offset size value =
      (t.write m offset size value).map (Prod.map (·.after p) (·.after p)) := by
  simp only [write]
  rw [config_after]
  split
  · rfl
  · split
    · generalize t.config.writeBlock _ _ _ = written
      obtain ⟨outcome, config⟩ := written
      cases outcome <;> rfl
    · split
      · rfl
      next r _ =>
        rw [writeRegister_after]
        cases t.writeRegister m value.toUInt32 r <;> rfl

end Transport.RegisterFile

/-! ### The event pass -/

namespace Device

/-- The device as it is after a past. -/
def after (d : Device) (p : Past) : Device :=
  { d with
    registers := d.registers.after p
    machine := d.machine.after p
    session := d.session.map p.session
    sessions := p.sessions ++ d.sessions.map p.kept }

variable (p : Past)

/-! A past leaves everything alone that has no numbers of virtqueues or sessions in it. -/

@[simp] theorem config_after (d : Device) :
    (d.after p).registers.config = d.registers.config := rfl

@[simp] theorem dma_after (d : Device) : (d.after p).machine.dma = d.machine.dma := rfl

@[simp] theorem backend_after (d : Device) : (d.after p).backend = d.backend := rfl

theorem modifyMachine_after (d : Device) {f : Machine → Machine}
    (commutes : f (d.machine.after p) = (f d.machine).after p) :
    (d.after p).modifyMachine f = (d.modifyMachine f).after p := by
  simp only [modifyMachine, after, commutes]

theorem tellBackend_after (d : Device) (calls : List BackendCall) :
    (d.after p).tellBackend (calls.map p.backendCall) = (d.tellBackend calls).after p := by
  have recorded := Machine.record_after p d.machine (calls.map .backend)
  rw [p.map_call_backend] at recorded
  simp only [tellBackend, modifyMachine, after, recorded]

/-- Calls that name no virtqueue. -/
theorem tellBackend_after_of_plain (d : Device) (calls : List BackendCall)
    (plain : calls.map p.backendCall = calls) :
    (d.after p).tellBackend calls = (d.tellBackend calls).after p := by
  have told := tellBackend_after p d calls
  rwa [plain] at told

theorem plain_unlessShutDown (c : Backend.Connection) (call : BackendCall)
    (plain : p.backendCall call = call) :
    (c.unlessShutDown call).map p.backendCall = c.unlessShutDown call := by
  simp only [Backend.Connection.unlessShutDown]
  split
  · rfl
  · rw [List.map_singleton, plain]

theorem endSession_after (d : Device) : (d.after p).endSession = d.endSession.after p := by
  simp only [endSession]
  cases current : d.session with
  | none => simp [after, current]
  | some number =>
    -- Retiring does not look at the queues of a session, so it may come before or after.
    have modified : (d.sessions.map p.kept).modify number (fun s => { s with retired := true }) =
        (d.sessions.modify number fun s => { s with retired := true }).map p.kept :=
      Machine.modify_map p.kept (fun s => { s with retired := true }) (fun _ => rfl) d.sessions
        number
    simp [after, current, Past.session, Machine.modify_append_right, modified]

theorem bringUpQueue_after (d : Device) (index : UInt16) :
    (d.after p).bringUpQueue index = (d.bringUpQueue index).after p := by
  simp only [bringUpQueue]
  have found : (d.after p).registers.queues[index.toNat]? =
      d.registers.queues[index.toNat]?.map p.registers := by
    simp [after, RegisterFile.after]
  -- Whatever becomes of the queue, its registers are put back in their place.
  have put (r : Registers) (m : Machine) :
      { d.after p with
        machine := m.after p
        registers := { (d.after p).registers with
          queues := (d.after p).registers.queues.set index.toNat (p.registers r) } } =
      Device.after { d with
        machine := m
        registers := { d.registers with queues := d.registers.queues.set index.toNat r } } p := by
    simp [after, RegisterFile.after, List.map_set]
  rw [found]
  cases d.registers.queues[index.toNat]? with
  | none => rfl
  | some r =>
    simp only [Option.map_some, p.isUp_registers]
    have limit : (d.after p).registers.maxQueueSize = d.registers.maxQueueSize := rfl
    have machine : (d.after p).machine = d.machine.after p := rfl
    rw [config_after, limit, machine, Machine.bringUp_after]
    split
    · rfl
    · split
      · exact put r.unmarkReady d.machine
      · cases d.machine.bringUp r index d.registers.maxQueueSize _ with
        | error e => exact put r.unmarkReady d.machine
        | ok brought => exact put brought.1 brought.2

theorem powerOn_after (d : Device) : (d.after p).powerOn = d.powerOn.after p := by
  simp only [powerOn]
  rw [endSession_after]
  generalize d.endSession = e
  have reset := RegisterFile.reset_after p e.registers e.machine
  simp only [after, reset, Prod.map, Machine.lowerLine_after]

theorem deliver_after (d : Device) : (d.after p).deliver = d.deliver.after p := by
  unfold deliver
  dsimp only
  rw [backend_after]
  split
  · rfl
  · have queues : (d.registers.queues.map p.registers).map (·.live) =
        (d.registers.queues.map (·.live)).map (·.map p.queue) := by
      simp [Past.registers]
    -- The call names the queues of the new session, so their numbers go up in both.
    have told := tellBackend_after p
      { d with
        delivered := true
        session := some d.sessions.length
        sessions := d.sessions ++ [Session.mk d.registers.config.negotiated
          (d.registers.queues.map (·.live)) false] }
      [.driverOk d.registers.config.negotiated (d.registers.queues.map (·.live))]
    simp only [after, RegisterFile.after, Past.session, Past.kept, Past.backendCall,
      List.length_append, List.length_map, List.map_append, List.map_singleton, Option.map_some,
      List.append_assoc, queues] at told ⊢
    exact told

theorem followStatus_after (d : Device) : (d.after p).followStatus = d.followStatus.after p := by
  simp only [followStatus]
  have delivered : (d.after p).delivered = d.delivered := rfl
  rw [config_after, delivered, powerOn_after, deliver_after]
  split
  · exact tellBackend_after_of_plain p _ _ (plain_unlessShutDown p _ _ rfl)
  · split <;> rfl

theorem notify_after (d : Device) (index : UInt16) :
    (d.after p).notify index = (d.notify index).after p := by
  unfold notify
  have found : (d.after p).registers.queues[index.toNat]?.map (·.isUp) =
      d.registers.queues[index.toNat]?.map (·.isUp) := by
    simp [after, RegisterFile.after, Function.comp_def, p.isUp_registers]
  dsimp only
  rw [found, config_after]
  split
  · exact tellBackend_after_of_plain p d _ (plain_unlessShutDown p _ _ rfl)
  · rfl

theorem foldl_after {α : Type} {f : Device → α → Device}
    (each : ∀ d x, f (d.after p) x = (f d x).after p) (d : Device) (list : List α) :
    list.foldl f (d.after p) = (list.foldl f d).after p := by
  induction list generalizing d with
  | nil => rfl
  | cons x list ih => rw [List.foldl_cons, each, ih, List.foldl_cons]

theorem stage_after (flag : Bool) {f : Device → Device}
    (each : ∀ d : Device, f (d.after p) = (f d).after p) (d : Device) :
    stage flag f (d.after p) = (stage flag f d).after p := by
  cases flag with
  | false => rfl
  | true => exact each d

theorem settle_after (d : Device) : (d.after p).settle = d.settle.after p := by
  have taken : { d.after p with registers.events := .none } =
      Device.after { d with registers.events := .none } p := rfl
  have events : (d.after p).registers.events = d.registers.events := rfl
  -- From the first stage to the last.
  rw [settle_eq, settle_eq, taken, events]
  rw [stage_after p _ (fun d' => foldl_after p (bringUpQueue_after p) d' _)]
  rw [stage_after p _ (followStatus_after p)]
  rw [stage_after p _ fun d' => modifyMachine_after p d' (Machine.clearLine_after p d'.machine _)]
  rw [stage_after p _ (fun d' => foldl_after p (notify_after p) d' _)]

/-! ### Accesses, the host and the backend -/

theorem access_after (d : Device) (access : Access) (offset : UInt64) (size : UInt8) :
    (d.after p).access access offset size =
      (d.access access offset size).map (·.after p) id := by
  cases access with
  | read =>
    have value := RegisterFile.read_after p d.registers d.machine offset size
    exact Prod.ext (settle_after p d) value
  | write value =>
    have written := RegisterFile.write_after p d.registers d.machine offset size value
    simp only [Device.access]
    simp only [after] at written ⊢
    rw [written]
    cases d.registers.write d.machine offset size value with
    | error e => exact Prod.ext (settle_after p d) rfl
    | ok done =>
      obtain ⟨registers, machine⟩ := done
      exact Prod.ext (settle_after p { d with registers, machine }) rfl

theorem raiseInterrupt_after (d : Device) : (d.after p).raiseInterrupt = d.raiseInterrupt.after p :=
  modifyMachine_after p d (Machine.raiseLine_after p d.machine _)

theorem clearInterrupt_after (d : Device) : (d.after p).clearInterrupt = d.clearInterrupt.after p :=
  modifyMachine_after p d (Machine.lowerLine_after p d.machine)

theorem getElem?_sessions_after (d : Device) (number : Nat) :
    (d.after p).sessions[p.session number]? = d.sessions[number]?.map p.kept := by
  simp only [after, Past.session]
  rw [List.getElem?_append_right (Nat.le_add_right _ _), Nat.add_sub_cancel_left, List.getElem?_map]

theorem sessionRaise_after (d : Device) (number : Nat) :
    (d.after p).sessionRaise (p.session number) = (d.sessionRaise number).after p := by
  simp only [sessionRaise]
  rw [getElem?_sessions_after, raiseInterrupt_after]
  cases d.sessions[number]? with
  | none => rfl
  | some s => cases live : s.retired <;> simp [Past.kept, live]

theorem sessionClear_after (d : Device) (number : Nat) :
    (d.after p).sessionClear (p.session number) = (d.sessionClear number).after p := by
  simp only [sessionClear]
  rw [getElem?_sessions_after, clearInterrupt_after]
  cases d.sessions[number]? with
  | none => rfl
  | some s => cases live : s.retired <;> simp [Past.kept, live]

theorem reviseConfig_after (d : Device) (offset : Nat) (bytes : List UInt8) :
    (d.after p).reviseConfig offset bytes = (d.reviseConfig offset bytes).map (·.after p) := by
  simp only [reviseConfig]
  rw [config_after]
  cases d.registers.config.reviseBlock offset bytes with
  | error e => rfl
  | ok revised =>
    obtain ⟨tell, config⟩ := revised
    cases tell with
    | false => rfl
    | true =>
      have raised := modifyMachine_after p { d with registers.config := config }
        (f := (·.raiseLine .configOnly)) (Machine.raiseLine_after p d.machine _)
      exact congrArg Except.ok raised

theorem shutdown_after (d : Device) : (d.after p).shutdown = d.shutdown.after p := by
  unfold shutdown
  rw [endSession_after]
  generalize d.endSession = e
  have retired : (e.after p).modifyMachine
      (fun m => (e.after p).registers.queues.foldl Machine.retireLive m) =
        (e.modifyMachine fun m => e.registers.queues.foldl Machine.retireLive m).after p := by
    have folded := Machine.foldl_retireLive_after p e.machine e.registers.queues
    simp only [modifyMachine, after, RegisterFile.after, folded]
  dsimp only
  rw [retired]
  generalize e.modifyMachine (fun m => e.registers.queues.foldl Machine.retireLive m) = e'
  have plain := plain_unlessShutDown p e'.backend .shutdown rfl
  exact tellBackend_after_of_plain p { e' with backend := e'.backend.shutdown.1 } _ plain

/-! ### The IOMMU -/

theorem askIommu_after (d : Device) (call : Backend.IommuCall) :
    (d.after p).askIommu call = (d.askIommu call).after p :=
  modifyMachine_after p d (Machine.record_after p d.machine [.iommu call])

theorem withTable_after (d : Device) (dma : Dma.Table) :
    (d.after p).withTable dma = (d.withTable dma).after p := rfl

theorem dropClass_after (d : Device) (cls : UInt16) :
    (d.after p).dropClass cls = (d.dropClass cls).after p := by
  simp only [dropClass]
  rw [dma_after]
  split
  · rfl
  · rw [withTable_after, tellBackend_after_of_plain p _ _ rfl, askIommu_after]
    rfl

theorem attachIommu_after (d : Device) (replies : Replies) :
    (d.after p).attachIommu replies = (d.attachIommu replies).map (·.after p) id := by
  simp only [attachIommu]
  rw [dma_after, askIommu_after]
  split
  · rfl
  · generalize d.askIommu .attach = e
    cases replies.iommuAttach with
    | error e => rfl
    | ok =>
      have plain : (e.backend.attach replies.backendAttach).1.map p.backendCall =
          (e.backend.attach replies.backendAttach).1 := by
        simp only [Backend.Connection.attach]
        split <;> rfl
      dsimp only
      rw [backend_after, tellBackend_after_of_plain p e _ plain]
      cases (e.backend.attach replies.backendAttach).2 with
      | error error => exact Prod.ext (askIommu_after p _ _) rfl
      | ok => rfl

theorem detachIommu_after (d : Device) :
    (d.after p).detachIommu = d.detachIommu.map (·.after p) id := by
  unfold detachIommu
  rw [dma_after]
  split
  · rfl
  · dsimp only
    rw [foldl_after p (dropClass_after p)]
    generalize List.foldl dropClass d _ = e
    have told := tellBackend_after_of_plain p e e.backend.detach rfl
    rw [backend_after, told]
    generalize e.tellBackend e.backend.detach = e'
    exact Prod.ext
      (askIommu_after p (e'.withTable { e'.machine.dma with attached := false }) .detach) rfl

theorem mapClass_after (d : Device) (replies : Replies) (cls : UInt16) (iova : UInt64) (len : Nat)
    (rights : Memory.Rights) :
    (d.after p).mapClass replies cls iova len rights =
      (d.mapClass replies cls iova len rights).map (·.after p) id := by
  simp only [mapClass]
  rw [dma_after, askIommu_after]
  split
  · rfl
  · split
    · rfl
    · split
      · rfl
      · split
        · rfl
        -- All that is asked before is answered; from here on the calls are what differs.
        · generalize d.askIommu (.map iova len rights) = e
          cases replies.iommuMap iova len rights with
          | error e => rfl
          | ok mapping =>
            have told := tellBackend_after_of_plain p e
              (e.backend.map cls mapping (replies.backendMap cls mapping)).1 rfl
            dsimp only
            rw [backend_after, told]
            generalize
              e.tellBackend (e.backend.map cls mapping (replies.backendMap cls mapping)).1 = e'
            cases (e.backend.map cls mapping (replies.backendMap cls mapping)).2 with
            | error error => exact Prod.ext (askIommu_after p e' _) rfl
            | ok =>
              have untold := tellBackend_after_of_plain p e' (e'.backend.unmap cls mapping) rfl
              dsimp only
              rw [dma_after, backend_after, untold]
              cases e'.machine.dma.insert cls mapping with
              | error error => exact Prod.ext (askIommu_after p _ _) rfl
              | ok table => rfl

theorem unmapClass_after (d : Device) (replies : Replies) (cls : UInt16) :
    (d.after p).unmapClass replies cls = (d.unmapClass replies cls).map (·.after p) id := by
  simp only [unmapClass]
  rw [dma_after]
  split
  · rfl
  · split
    · rfl
    next mapping table _ =>
      have told := tellBackend_after_of_plain p (d.withTable table)
        (d.backend.unmap cls mapping) rfl
      exact Prod.ext ((congrArg (askIommu · _) told).trans (askIommu_after p _ _)) rfl

end Device

/-! ### Actions and runs -/

/-- An action on new handles, on the handles with their numbers after a past. -/
def Past.action (p : Past) : Action → Action
  | .request number request => .request (p.queue number) request
  | .sessionRaise number => .sessionRaise (p.session number)
  | .sessionClear number => .sessionClear (p.session number)
  | other => other

namespace Device

variable (p : Past)

theorem step_after (d : Device) (action : Action) :
    (d.after p).step (p.action action) = (d.step action).map (·.after p) id := by
  cases action with
  | access access offset size =>
    exact congrArg (Prod.map id Response.access) (access_after p d access offset size)
  | settle => exact Prod.ext (settle_after p d) rfl
  | request number request =>
    have served := Machine.perform_after p d.machine number request
    exact congrArg (fun both : Machine × Answer =>
      (({ d.after p with machine := both.1 }, .answer both.2) : Device × Response)) served
  | sessionRaise number => exact Prod.ext (sessionRaise_after p d number) rfl
  | sessionClear number => exact Prod.ext (sessionClear_after p d number) rfl
  | raise => exact Prod.ext (raiseInterrupt_after p d) rfl
  | clear => exact Prod.ext (clearInterrupt_after p d) rfl
  | pending => rfl
  | revise offset bytes =>
    have revised := reviseConfig_after p d offset bytes
    simp only [Past.action, step, revised]
    cases d.reviseConfig offset bytes <;> rfl
  | shutdown => exact Prod.ext (shutdown_after p d) rfl
  | attach replies => exact congrArg (Prod.map id Response.iommu) (attachIommu_after p d replies)
  | detach => exact congrArg (Prod.map id Response.iommu) (detachIommu_after p d)
  | map replies cls iova len rights =>
    exact congrArg (Prod.map id Response.mapping) (mapClass_after p d replies cls iova len rights)
  | unmap replies cls =>
    exact congrArg (Prod.map id Response.iommu) (unmapClass_after p d replies cls)
  | poke addr bytes => rfl
  | protect base rights =>
    have ram : (d.after p).machine.ram = d.machine.ram := rfl
    simp only [Past.action, step, ram]
    cases d.machine.ram.setRights base rights <;> rfl

theorem run_after (d : Device) (actions : List Action) :
    (d.after p).run (actions.map p.action) = (d.run actions).map (·.after p) id := by
  induction actions generalizing d with
  | nil => rfl
  | cons action later ih =>
    simp only [List.map_cons, run, step_after, Prod.map, ih]
    rfl

end Device

end VirtioMmio
