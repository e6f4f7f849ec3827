import VirtioMmio.Backend.Connection
import VirtioMmio.Backend.Session
import VirtioMmio.Device.Profile
import VirtioMmio.Machine.Operations

/-!
A virtio device on the MMIO bus. Every register access is followed by an event pass, in which the
device does what the access left to do: bring queues up, follow the status, clear interrupts, pass
doorbells on. The order of the pass is fixed.

A session is what the backend is handed when the driver is done with its set-up. It ends, together
with its virtqueues, when the driver resets the device or the device is shut down.
-/

namespace VirtioMmio

open Backend (BackendCall Connection Session)
open Interrupt (Causes)
open Transport (RegisterFile windowSize configSpace)

/-- A device: its registers, what they share with the backend, and the state of the session. -/
structure Device where
  base : UInt64
  registers : RegisterFile
  machine : Machine
  backend : Connection := {}
  -- The backend was told of the driver's set-up since the last reset.
  delivered : Bool := false
  -- The number of the session that the backend holds.
  session : Option Nat := none
  -- Every session the backend was ever handed.
  sessions : List Session := []

inductive Access where
  | read
  | write (value : UInt64)
  deriving DecidableEq, Repr

namespace Device

/-! ### Construction -/

/-- Where a device lies and what it may offer. -/
structure Options where
  base : UInt64
  intid : UInt32
  -- A bound on the size of queues, besides that of the device type.
  maxQueueSize : UInt16 := defaultQueueSize
  -- Offer indirect tables.
  indirect : Bool := false
  deriving DecidableEq, Repr

/-- The limit on queue sizes that options and device type come to. -/
def queueLimit (options : Options) (profile : Profile) : UInt16 :=
  min options.maxQueueSize profile.maxQueueSize

/-- A limit on queue sizes is a power of two that the ring format allows. -/
def isQueueLimit (size : UInt16) : Bool :=
  Vring.isPowerOfTwo size.toNat && size ≤ maxQueueSize

/-- The features a device offers: its own, the modern interface, and indirect tables if wanted. -/
def offeredFeatures (options : Options) (profile : Profile) : UInt64 :=
  profile.features ||| version1Feature ||| (if options.indirect then indirectFeature else 0)

/-- A device at power-on, or the first reason against it. -/
def new (profile : Profile) (options : Options) (ram : Memory.Ram) : Except ConfigError Device :=
  if options.base % windowSize != 0 then .error (.misaligned options.base)
  else if maxQueues < profile.queues then .error (.tooManyQueues profile.queues)
  else if !isQueueLimit (queueLimit options profile) then
    .error (.queueSize (queueLimit options profile))
  else if (windowSize - configSpace).toNat < profile.config.length then
    .error (.configTooLarge profile.config.length)
  else
    .ok {
      base := options.base
      registers := .new profile.id (queueLimit options profile) profile.queues
        (.new (offeredFeatures options profile) profile.config profile.writable)
      machine := { ram, dma := .unmapped profile.queues, line := ⟨options.intid, .nothing⟩ } }

/-! ### Parts -/

/-- Change what registers and backend share. -/
def modifyMachine (d : Device) (f : Machine → Machine) : Device :=
  { d with machine := f d.machine }

def tellBackend (d : Device) (calls : List BackendCall) : Device :=
  d.modifyMachine (·.record (calls.map .backend))

/-- Retire the session that the backend holds, if there is one. -/
def endSession (d : Device) : Device :=
  match d.session with
  | none => d
  | some number =>
    { d with
      session := none
      sessions := d.sessions.modify number fun s => { s with retired := true } }

/-! ### Event pass -/

/-- Bring up a queue that the driver made ready. It is not made ready after all if the driver is
late or the programmed layout is no good. -/
def bringUpQueue (d : Device) (index : UInt16) : Device :=
  match d.registers.queues[index.toNat]? with
  | none => d
  | some r =>
    let put (r : Queue.Registers) (machine : Machine) : Device :=
      { d with
        machine
        registers := { d.registers with queues := d.registers.queues.set index.toNat r } }
    if r.isUp then d
    -- Too late: the backend was already told which queues there are.
    else if d.registers.config.status.driverOk then put r.unmarkReady d.machine
    else
      let indirect := d.registers.config.negotiated &&& indirectFeature != 0
      match d.machine.bringUp r index d.registers.maxQueueSize indirect with
      | .error _ => put r.unmarkReady d.machine
      | .ok (r, machine) => put r machine

/-- Everything but the configuration block, the IOMMU and the backend's shut-down back to power-on.
The backend is not told. -/
def powerOn (d : Device) : Device :=
  let d := d.endSession
  let (registers, machine) := d.registers.reset d.machine
  { d with registers, machine := machine.lowerLine, delivered := false }

/-- Hand the device to the backend. A backend that was shut down gets nothing. -/
def deliver (d : Device) : Device :=
  let d := { d with delivered := true }
  if d.backend.isShutDown then d
  else
    let features := d.registers.config.negotiated
    let queues := d.registers.queues.map (·.live)
    { d with
      session := some d.sessions.length
      sessions := d.sessions ++ [Session.mk features queues false] }.tellBackend
        [.driverOk features queues]

/-- Follow a change of the status: a reset, or the end of the driver's set-up. -/
def followStatus (d : Device) : Device :=
  if d.registers.config.status.isEmpty then
    let d := d.powerOn
    d.tellBackend d.backend.reset
  else if d.registers.config.status.driverOk && !d.delivered then d.deliver
  else d

/-- Pass a doorbell on, if the driver is done with its set-up and the queue is up. -/
def notify (d : Device) (index : UInt16) : Device :=
  let isUp := (d.registers.queues[index.toNat]?.map (·.isUp)).getD false
  if d.registers.config.status.driverOk && isUp then d.tellBackend (d.backend.notify index) else d

/-- Do what the accesses so far left to do. -/
def settle (d : Device) : Device :=
  let (events, registers) := d.registers.collectEvents
  let d := { d with registers }
  -- Queues come first, so that a session that starts in this pass already has them.
  let d := if events.readyFlag then events.readied.toList.foldl bringUpQueue d else d
  let d := if events.statusFlag then d.followStatus else d
  let d :=
    if events.acknowledgeFlag then d.modifyMachine (·.clearLine events.acknowledge) else d
  if events.notifyFlag then events.notify.toList.foldl notify d else d

/-- An access of `size` bytes at an offset into the window, and the event pass after it. A write
gives zero. -/
def access (d : Device) (access : Access) (offset : UInt64) (size : UInt8) :
    Device × Except AccessError UInt64 :=
  match access with
  | .read => (d.settle, d.registers.read d.machine offset size)
  | .write value =>
    match d.registers.write d.machine offset size value with
    | .error e => (d.settle, .error e)
    | .ok (registers, machine) => ({ d with registers, machine }.settle, .ok 0)

def read (d : Device) (offset : UInt64) (size : UInt8) : Device × Except AccessError UInt64 :=
  d.access .read offset size

def write (d : Device) (offset value : UInt64) (size : UInt8) :
    Device × Except AccessError Unit :=
  let (d, outcome) := d.access (.write value) offset size
  (d, outcome.map fun _ => ())

/-! ### Bus and host -/

def contains (d : Device) (addr : UInt64) : Bool :=
  d.base ≤ addr && addr - d.base < windowSize

/-- The interrupt the device asks for, if it asks for one. -/
def pendingInterrupt (d : Device) : Option UInt32 :=
  if d.machine.line.isPending then some d.machine.line.intid else none

def raiseInterrupt (d : Device) : Device :=
  d.modifyMachine (·.raiseLine .ringOnly)

def clearInterrupt (d : Device) : Device :=
  d.modifyMachine (·.lowerLine)

/-- Replace part of the configuration block. The driver hears of it if the device is running. -/
def reviseConfig (d : Device) (offset : Nat) (bytes : List UInt8) : Except ConfigError Device :=
  match d.registers.config.reviseBlock offset bytes with
  | .error e => .error e
  | .ok (tell, config) =>
    let d := { d with registers := { d.registers with config } }
    .ok (if tell then d.modifyMachine (·.raiseLine .configOnly) else d)

/-- Take the device down: the session and the virtqueues are retired and the backend is shut down.
The registers stay readable. -/
def shutdown (d : Device) : Device :=
  let d := d.endSession
  let d := d.modifyMachine fun m => d.registers.queues.foldl Machine.retireLive m
  let (backend, calls) := d.backend.shutdown
  { d with backend }.tellBackend calls

/-! ### Sessions -/

/-- Raise the used-buffer interrupt for a session, unless it is retired. -/
def sessionRaise (d : Device) (number : Nat) : Device :=
  match d.sessions[number]? with
  | some s => if s.retired then d else d.raiseInterrupt
  | none => d

/-- Clear every interrupt cause for a session, unless it is retired. -/
def sessionClear (d : Device) (number : Nat) : Device :=
  match d.sessions[number]? with
  | some s => if s.retired then d else d.clearInterrupt
  | none => d

end Device

end VirtioMmio
