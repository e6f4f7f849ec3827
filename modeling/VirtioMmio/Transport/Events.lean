import VirtioMmio.Interrupt.Causes
import VirtioMmio.Queue.Mask

/-!
Work that register accesses leave behind for the device. A write only notes what happened; the
device takes all notes at once after the access, so each is seen exactly once.
-/

namespace VirtioMmio.Transport

open Interrupt (Causes)
open Queue (Mask)

/-- Notes of what happened since they were last taken: a flag for each kind, and its details. -/
structure Events where
  readyFlag : Bool := false
  statusFlag : Bool := false
  acknowledgeFlag : Bool := false
  notifyFlag : Bool := false
  -- Queues that the driver made ready.
  readied : Mask := .empty
  -- Interrupt causes that the driver acknowledged.
  acknowledge : Causes := .nothing
  -- Queues that the driver rang for.
  notify : Mask := .empty
  deriving DecidableEq, Repr

namespace Events

def none : Events := {}

def noteReady (e : Events) (queue : UInt16) : Events :=
  { e with readyFlag := true, readied := e.readied.insert queue }

/-- The status became zero or driver-ok. -/
def noteStatus (e : Events) : Events :=
  { e with statusFlag := true }

def noteAcknowledge (e : Events) (causes : Causes) : Events :=
  { e with acknowledgeFlag := true, acknowledge := e.acknowledge.union causes }

def noteNotify (e : Events) (queue : UInt16) : Events :=
  { e with notifyFlag := true, notify := e.notify.insert queue }

/-- The four flags as one number. -/
def flagBits (e : Events) : UInt32 :=
  (if e.readyFlag then 1 else 0) ||| (if e.statusFlag then 2 else 0) |||
    (if e.acknowledgeFlag then 4 else 0) ||| (if e.notifyFlag then 8 else 0)

end Events

end VirtioMmio.Transport
