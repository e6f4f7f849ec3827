import VirtioMmio.Machine.Basic
import VirtioMmio.Queue.Transfer

/-!
What a backend does with a virtqueue: take chains, return them, move bytes, and regulate
notifications. Each operation first checks that the virtqueue is live; any trouble it meets after
that, in the rings or in the buffers, fails the virtqueue.
-/

namespace VirtioMmio.Machine

open Queue (Virtqueue)
open Vring (Chain)

/-- Take the next chain from the available ring. -/
def takeChain (m : Machine) (number : Nat) : Machine × Except QueueError (Option Chain) :=
  match m.liveQueue number with
  | .error e => (m, .error e)
  | .ok q =>
    match q.nextChain (m.space q) with
    | .error e => (m.fail number, .error e)
    | .ok none => (m, .ok none)
    | .ok (some chain) =>
      (m.modifyQueue number (·.stepAvailable), .ok (some chain))

/-- Return the chain with a given head, of which `len` bytes were written. A head outside the
descriptor table is refused but does no harm. -/
def returnChain (m : Machine) (number : Nat) (head : UInt16) (len : UInt32) :
    Machine × Except QueueError Unit :=
  match m.liveQueue number with
  | .error e => (m, .error e)
  | .ok q =>
    if q.layout.size ≤ head then (m, .error (.descriptorIndex head q.layout.size))
    else
      match q.putUsed (m.space q) head len with
      -- An entry that was stored but could not be published stays in memory.
      | (ram, .error e) => ({ m with ram }.fail number, .error (.buffer e))
      | (ram, .ok ()) => ({ m with ram }.modifyQueue number (·.stepUsed), .ok ())

/-- The driver wants an interrupt for returned buffers. -/
def wantsInterrupt (m : Machine) (number : Nat) : Bool :=
  match m.queues[number]? with
  | none => true
  | some q => q.wantsInterrupt (m.space q)

/-- Tell the driver whether to notify the device of new buffers. -/
def askNotifications (m : Machine) (number : Nat) (wanted : Bool) :
    Machine × Except QueueError Unit :=
  match m.liveQueue number with
  | .error e => (m, .error e)
  | .ok q =>
    match q.putWish (m.space q) wanted with
    | .error e => (m.fail number, .error (.buffer e))
    | .ok ram => ({ m with ram }, .ok ())

/-- Fill `buffer` from the readable buffers of a chain: the whole buffer afterwards, and the number
of bytes filled. -/
def gather (m : Machine) (number : Nat) (chain : Chain) (buffer : List UInt8) :
    Machine × List UInt8 × Except QueueError Nat :=
  match m.liveQueue number with
  | .error e => (m, buffer, .error e)
  | .ok q =>
    match Queue.gather (m.space q) chain.readable [] buffer with
    -- What was filled before the refusal stays in the buffer.
    | (buffer, .error e) => (m.fail number, buffer, .error (.buffer e))
    | (buffer, .ok filled) => (m, buffer, .ok filled)

/-- Put `data` into the writable buffers of a chain: the number of bytes put. -/
def scatter (m : Machine) (number : Nat) (chain : Chain) (data : List UInt8) :
    Machine × Except QueueError Nat :=
  match m.liveQueue number with
  | .error e => (m, .error e)
  | .ok q =>
    match Queue.scatter (m.space q) chain.writable 0 data with
    -- What was put before the refusal stays in memory.
    | (ram, .error e) => ({ m with ram }.fail number, .error (.buffer e))
    | (ram, .ok copied) => ({ m with ram }, .ok copied)

end VirtioMmio.Machine
