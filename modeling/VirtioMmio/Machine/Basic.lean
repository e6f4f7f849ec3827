import VirtioMmio.Backend.Call
import VirtioMmio.Queue.Registers
import VirtioMmio.Queue.Virtqueue

/-!
What the registers of a device and its backend share: guest RAM, the mappings of its
IOMMU, the interrupt line, every virtqueue the device ever brought up, and the record of the calls
it made.

A virtqueue is named by its number in order of appearance. Numbers stay good for ever: after a reset
the old virtqueues are retired but still there, so a backend that kept a number finds a queue that
refuses to work.
-/

namespace VirtioMmio

open Backend (Call)
open Interrupt (Causes)
open Queue (Virtqueue Registers)

/-- Guest RAM, mappings, interrupt line, virtqueues and calls. -/
structure Machine where
  ram : Memory.Ram := .empty
  dma : Dma.Table := {}
  line : Interrupt.Line
  queues : List Virtqueue := []
  calls : List Call := []

namespace Machine

def record (m : Machine) (calls : List Call) : Machine :=
  { m with calls := m.calls ++ calls }

/-! ### Interrupts -/

/-- Put the line into a new state and record the calls this took. -/
def withLine (m : Machine) (change : Interrupt.Line × List Interrupt.LineCall) : Machine :=
  { m with line := change.1 }.record (change.2.map .line)

def raiseLine (m : Machine) (causes : Causes) : Machine :=
  m.withLine (m.line.raise causes)

def clearLine (m : Machine) (causes : Causes) : Machine :=
  m.withLine (m.line.clear causes)

def lowerLine (m : Machine) : Machine :=
  m.withLine m.line.lower

/-! ### Virtqueues -/

def space (m : Machine) (q : Virtqueue) : Dma.Space :=
  ⟨m.ram, m.dma, q.index⟩

def modifyQueue (m : Machine) (number : Nat) (f : Virtqueue → Virtqueue) : Machine :=
  { m with queues := m.queues.modify number f }

def retire (m : Machine) (number : Nat) : Machine :=
  m.modifyQueue number fun q => { q with retired := true }

/-- Mark a virtqueue failed. The first failure asks the driver for a reset. -/
def fail (m : Machine) (number : Nat) : Machine :=
  match m.queues[number]? with
  | none => m
  | some q =>
    if q.failed then m
    else (m.modifyQueue number fun q => { q with failed := true }).raiseLine .configOnly

/-- A virtqueue that is neither retired nor failed. A number without a virtqueue counts as
retired. -/
def liveQueue (m : Machine) (number : Nat) : Except QueueError Virtqueue :=
  match m.queues[number]? with
  | none => .error .retired
  | some q =>
    if q.retired then .error .retired
    else if q.failed then .error .failed
    else .ok q

/-- Bring a queue up from its registers: its new registers and the machine with the virtqueue. A
queue that is up already stays as it is. -/
def bringUp (m : Machine) (r : Registers) (index max : UInt16) (indirect : Bool) :
    Except QueueError (Registers × Machine) :=
  if r.isUp then .ok (r, m)
  else
    match Vring.Layout.new r.size max r.desc r.driver r.device with
    | .error e => .error e
    | .ok layout =>
      match layout.requireBacked ⟨m.ram, m.dma, index⟩ with
      | .error e => .error e
      | .ok () =>
        .ok ({ r with live := some m.queues.length },
          { m with queues := m.queues ++ [{ index, layout, indirect }] })

/-- Retire the virtqueue that registers were brought up as, if they were. -/
def retireLive (m : Machine) (r : Registers) : Machine :=
  match r.live with
  | none => m
  | some number => m.retire number

end Machine

end VirtioMmio
