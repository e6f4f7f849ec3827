import VirtioMmio.Config.State
import VirtioMmio.Machine.Basic
import VirtioMmio.Transport.Error
import VirtioMmio.Transport.Events
import VirtioMmio.Transport.Register

/-!
The register file of a virtio-mmio device. Reads look at the state and never change it. Writes
change fields of the register file and note what the device has to do about it; they call nobody.
-/

namespace VirtioMmio

open Config (State Status)
open Queue (Registers)
open Interrupt (Causes)

inductive DeviceId where
  | net
  | block
  | console
  | socket
  deriving DecidableEq, Repr

def DeviceId.number : DeviceId → UInt32
  | .net => 1
  | .block => 2
  | .console => 3
  | .socket => 19

namespace Transport

/-- What the magic register reads: the letters `virt`. -/
def magicNumber : UInt32 := 0x74726976
def versionNumber : UInt32 := 2
/-- What the vendor register reads: the letters `QEMU`. -/
def vendorNumber : UInt32 := 0x554d4551
def configSpace : UInt64 := 0x100
def windowSize : UInt64 := 0x200

/-- The registers of a device, and what their writes left to do. -/
structure RegisterFile where
  id : DeviceId
  maxQueueSize : UInt16
  config : State
  queues : List Registers
  events : Events := .none
  deriving DecidableEq, Repr

namespace RegisterFile

def new (id : DeviceId) (maxQueueSize : UInt16) (queues : Nat) (config : State) : RegisterFile :=
  { id, maxQueueSize, config, queues := List.replicate queues .blank }

def selected? (t : RegisterFile) : Option Registers :=
  t.queues[t.config.queue.toNat]?

def modifySelected (t : RegisterFile) (f : Registers → Registers) : RegisterFile :=
  { t with queues := t.queues.modify t.config.queue.toNat f }

/-- Some queue that is up has failed. -/
def anyFailed (t : RegisterFile) (m : Machine) : Bool :=
  t.queues.any fun r => ((r.live.bind fun number => m.queues[number]?).map (·.failed)).getD false

/-- The status as the driver reads it: the device asks for a reset while a queue has failed. -/
def status (t : RegisterFile) (m : Machine) : Status :=
  if t.anyFailed m then { t.config.status with needsReset := true } else t.config.status

/-- All queues back to power-on; their virtqueues are retired. -/
def resetQueues (t : RegisterFile) (m : Machine) : RegisterFile × Machine :=
  ({ t with queues := t.queues.map fun _ => .blank }, t.queues.foldl Machine.retireLive m)

def reset (t : RegisterFile) (m : Machine) : RegisterFile × Machine :=
  { t with config := t.config.reset }.resetQueues m

/-- Take the notes; none are left. -/
def collectEvents (t : RegisterFile) : Events × RegisterFile :=
  (t.events, { t with events := .none })

/-! ### Access rules -/

/-- Registers are accessed in 32 bits at multiples of four; the configuration space in any of the
four widths. -/
def checkWidth (offset : UInt64) (size : UInt8) : Except AccessError Unit :=
  if !(size == 1 || size == 2 || size == 4 || size == 8) then .error (.badSize offset size)
  else if offset < configSpace then
    -- The width is judged before the place.
    if size != 4 then .error (.badSize offset size)
    else if offset % 4 != 0 then .error (.badOffset offset)
    else .ok ()
  else .ok ()

/-! ### Reads -/

/-- What a register reads; `none` if it is write-only. -/
def readRegister (t : RegisterFile) (m : Machine) : Register → Option UInt32
  | .magic => some magicNumber
  | .version => some versionNumber
  | .deviceId => some t.id.number
  | .vendorId => some vendorNumber
  | .offeredFeatures => some t.config.offeredHalf
  | .queueSizeMax => some (if t.selected?.isSome then t.maxQueueSize.toUInt32 else 0)
  | .queueReady => some (if (t.selected?.map (·.isUp)).getD false then 1 else 0)
  | .interruptStatus => some m.line.pending.bits
  | .status => some (t.status m).bits
  | .configGeneration => some t.config.block.generation
  | .offeredFeaturesWindow | .driverFeatures | .driverFeaturesWindow | .queueSelect | .queueSize
  | .queueNotify | .interruptAcknowledge | .queueAddress _ _ => none

/-- A read of `size` bytes at an offset into the window. -/
def read (t : RegisterFile) (m : Machine) (offset : UInt64) (size : UInt8) :
    Except AccessError UInt64 :=
  match checkWidth offset size with
  | .error e => .error e
  | .ok () =>
    if configSpace ≤ offset then
      match t.config.block.read (offset - configSpace).toNat size.toNat with
      | some v => .ok (UInt64.ofNat v)
      | none => .error (.badOffset offset)
    else
      match Register.ofOffset? offset with
      | none => .error (.badOffset offset)
      | some r =>
        match t.readRegister m r with
        | some v => .ok v.toUInt64
        | none => .error (.writeOnly offset)

/-! ### Writes -/

/-- A write to the ready register. Only the device takes a queue down, so zero does nothing. -/
def writeReady (t : RegisterFile) (v : UInt32) : RegisterFile :=
  if v = 0 || t.selected?.isNone then t
  else
    let t := t.modifySelected .markReady
    { t with events := t.events.noteReady t.config.queue }

/-- A write to the notify register. A number without a queue does nothing. -/
def writeNotify (t : RegisterFile) (v : UInt32) : RegisterFile :=
  if v.toNat < t.queues.length then { t with events := t.events.noteNotify v.toUInt16 } else t

/-- A write to the interrupt acknowledge register. Bits without a cause do nothing. -/
def writeAcknowledge (t : RegisterFile) (v : UInt32) : RegisterFile :=
  let causes := Causes.ofBits v
  if causes.isEmpty then t else { t with events := t.events.noteAcknowledge causes }

def writeStatus (t : RegisterFile) (m : Machine) (v : UInt32) : RegisterFile × Machine :=
  let (outcome, config) := t.config.writeStatus v
  let t := { t with config }
  match outcome with
  | .reset =>
    let (t, m) := t.resetQueues m
    ({ t with events := t.events.noteStatus }, m)
  | .accepted true => ({ t with events := t.events.noteStatus }, m)
  | .accepted false => (t, m)
  | .rejected => (t, m)

/-- A write to a register; `none` if it is read-only. -/
def writeRegister (t : RegisterFile) (m : Machine) (v : UInt32) :
    Register → Option (RegisterFile × Machine)
  | .offeredFeaturesWindow => some ({ t with config := t.config.selectOffered v }, m)
  | .driverFeatures => some ({ t with config := (t.config.writeFeatures v).2 }, m)
  | .driverFeaturesWindow => some ({ t with config := t.config.selectAccepted v }, m)
  | .queueSelect => some ({ t with config := t.config.selectQueue v }, m)
  | .queueSize => some (t.modifySelected (·.writeSize v), m)
  | .queueReady => some (t.writeReady v, m)
  | .queueNotify => some (t.writeNotify v, m)
  | .interruptAcknowledge => some (t.writeAcknowledge v, m)
  | .status => some (t.writeStatus m v)
  | .queueAddress ring half => some (t.modifySelected (·.writeAddr ring half v), m)
  | .magic | .version | .deviceId | .vendorId | .offeredFeatures | .queueSizeMax
  | .interruptStatus | .configGeneration => none

/-- A write of `size` bytes at an offset into the window. Registers take the low 32 bits. -/
def write (t : RegisterFile) (m : Machine) (offset : UInt64) (size : UInt8) (value : UInt64) :
    Except AccessError (RegisterFile × Machine) :=
  match checkWidth offset size with
  | .error e => .error e
  | .ok () =>
    if configSpace ≤ offset then
      match t.config.writeBlock (offset - configSpace).toNat size.toNat value.toNat with
      | (.written _, config) => .ok ({ t with config }, m)
      | (.readOnly, _) => .error (.readOnly offset)
      | (.outOfRange, _) => .error (.badOffset offset)
    else
      match Register.ofOffset? offset with
      | none => .error (.badOffset offset)
      | some r =>
        match t.writeRegister m value.toUInt32 r with
        | some written => .ok written
        | none => .error (.readOnly offset)

end RegisterFile

end Transport

end VirtioMmio
