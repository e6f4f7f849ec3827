import VirtioMmio.Queue.Mask
import VirtioMmio.Wakeup.Semaphore

/-!
A doorbell: a semaphore together with the set of queues rung since the last wakeup. Ringing and
waiting each take two atomic steps, one on the set and one on the semaphore; the steps are
definitions of their own so that their interleavings can be studied.
-/

namespace VirtioMmio.Wakeup

/-- The queues that were rung and not yet collected, and one permit per ring. -/
structure Doorbell where
  semaphore : Semaphore := {}
  pending : Queue.Mask := .empty
  deriving DecidableEq, Repr

namespace Doorbell

/-- First step of a ring: note the queue. Numbers from 64 on have no bit. -/
def mark (d : Doorbell) (queue : UInt16) : Doorbell :=
  if queue < 64 then { d with pending := d.pending.insert queue } else d

/-- Second step of a ring: post the wakeup. -/
def post (d : Doorbell) : Doorbell :=
  { d with semaphore := d.semaphore.signal }

/-- First step of a wait: take a wakeup. -/
def take (d : Doorbell) : Except Cancelled (Bool × Doorbell) :=
  match d.semaphore.take with
  | .error e => .error e
  | .ok (taken, semaphore) => .ok (taken, { d with semaphore })

/-- Second step of a wait: collect the queues rung so far. -/
def collect (d : Doorbell) : Queue.Mask × Doorbell :=
  (d.pending, { d with pending := .empty })

/-- Ring for a queue, both steps. -/
def ring (d : Doorbell) (queue : UInt16) : Doorbell :=
  (d.mark queue).post

/-- One attempt to wait, both steps: the queues collected, or `none` without a wakeup. -/
def wait (d : Doorbell) : Except Cancelled (Option Queue.Mask × Doorbell) :=
  match d.take with
  | .error e => .error e
  | .ok (false, rest) => .ok (none, rest)
  | .ok (true, rest) => .ok (some rest.collect.1, rest.collect.2)

/-- Cancel every wait from now on. -/
def shutdown (d : Doorbell) : Doorbell :=
  { d with semaphore := d.semaphore.shutdown }

end Doorbell

end VirtioMmio.Wakeup
