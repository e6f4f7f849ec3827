import VirtioMmio.Vring.Chain
import VirtioMmio.Vring.Layout

/-!
A queue that has been brought up. The rings lie in memory that an untrusted driver writes, so the
device keeps its own positions in both rings and never reads them back; every index, length and
address found in memory is checked before use.

`follow` walks one table of descriptors; the same walk serves the queue's own table and an indirect
one. Its budget is the number of entries of the table: a walk that outlasts it has met an entry
twice.
-/

namespace VirtioMmio.Queue

open Vring (Chain Descriptor Layout)
open Dma (Space)

/-- A queue in use. Its positions in the two rings are the numbers of chains taken from the
available ring and returned through the used ring, both modulo `2 ^ 16`. -/
structure Virtqueue where
  -- The number of the queue, which is also its buffer class.
  index : UInt16
  layout : Layout
  -- The driver may use indirect tables.
  indirect : Bool
  chainsTaken : UInt16 := 0
  chainsReturned : UInt16 := 0
  -- The queue met something it cannot work with; only a reset of the device helps.
  failed : Bool := false
  -- The device was reset or shut down; nothing helps.
  retired : Bool := false
  deriving DecidableEq, Repr

/-! ### Walking a table -/

/-- Check one buffer of a chain: readable buffers come before writable ones, and the range must
grant the access that its direction needs. `seenWritable` tells whether a writable buffer came
before; the answer tells it for the buffers that follow. -/
def checkBuffer (s : Space) (seenWritable : Bool) (d : Descriptor) : Except QueueError Bool :=
  if !d.isWritable && seenWritable then .error .orderViolation
  else
    let access := if d.isWritable then Memory.Rights.writing else Memory.Rights.reading
    match s.check d.addr d.len.toNat access with
    | .error e => .error (.buffer e)
    | .ok () => .ok d.isWritable

def entryAddr (table : UInt64) (index : UInt16) : UInt64 :=
  table + 16 * index.toUInt64

/-- Follow the links of a table of `count` descriptors from `index` on. `taken` holds the buffers
found before, latest first; `enter` says what to do with an indirect descriptor. -/
def follow (s : Space) (table : UInt64) (count : UInt16)
    (enter : Descriptor → Bool → List Descriptor → Except QueueError (List Descriptor)) :
    Nat → UInt16 → Bool → List Descriptor → Except QueueError (List Descriptor)
  | 0, index, _, _ =>
    -- A bad link is reported as such even when the budget is spent.
    if count ≤ index then .error (.descriptorIndex index count) else .error (.chainTooLong count)
  | budget + 1, index, seenWritable, taken =>
    if count ≤ index then .error (.descriptorIndex index count)
    else
      match s.readDescriptor (entryAddr table index) with
      | .error e => .error (.buffer e)
      | .ok d =>
        if d.isIndirect then enter d seenWritable taken
        else
          match checkBuffer s seenWritable d with
          | .error e => .error e
          | .ok seenWritable =>
            if d.hasNext then
              follow s table count enter budget d.next seenWritable (d :: taken)
            else .ok (d :: taken)

def maxIndirect : Nat := 32768

/-- Follow the indirect table that `d` names. It holds whole descriptors, between one and
`maxIndirect` of them, all readable, and no further table. -/
def followIndirect (s : Space) (d : Descriptor) (seenWritable : Bool) (taken : List Descriptor) :
    Except QueueError (List Descriptor) :=
  let len := d.len.toNat
  if len = 0 ∨ len % 16 ≠ 0 ∨ maxIndirect < len / 16 then .error .badIndirect
  else
    -- The table is checked as a whole before any entry is read.
    match s.check d.addr len .reading with
    | .error e => .error (.buffer e)
    | .ok () =>
      let count := UInt16.ofNat (len / 16)
      follow s d.addr count (fun _ _ _ => .error .badIndirect) count.toNat 0 seenWritable taken

namespace Virtqueue

/-- What an indirect descriptor of the queue's own table leads to. It must be allowed and must be
the last of the table. -/
def enter (q : Virtqueue) (s : Space) (d : Descriptor) (seenWritable : Bool)
    (taken : List Descriptor) : Except QueueError (List Descriptor) :=
  if !q.indirect || d.hasNext then .error .badIndirect
  else followIndirect s d seenWritable taken

def chainAt (q : Virtqueue) (s : Space) (head : UInt16) : Except QueueError Chain :=
  match follow s q.layout.desc q.layout.size (q.enter s) q.layout.size.toNat head false [] with
  | .error e => .error e
  | .ok taken => .ok ⟨head, taken.reverse⟩

/-! ### The available ring -/

def availIndexAddr (q : Virtqueue) : UInt64 := q.layout.avail + 2

def availEntryAddr (q : Virtqueue) : UInt64 :=
  q.layout.avail + 4 + 2 * (q.chainsTaken % q.layout.size).toUInt64

/-- The head of the chain the driver made available next, if there is one. The driver can never be
ahead by more entries than the ring holds. -/
def nextHead (q : Virtqueue) (s : Space) : Except QueueError (Option UInt16) :=
  match s.read16 q.availIndexAddr with
  | .error e => .error (.buffer e)
  | .ok published =>
    -- Both positions wrap at `2 ^ 16`, and so does their difference.
    let ahead := published - q.chainsTaken
    if ahead = 0 then .ok none
    else if q.layout.size < ahead then .error (.availOverrun ahead)
    else
      match s.read16 q.availEntryAddr with
      | .error e => .error (.buffer e)
      | .ok head => .ok (some head)

def stepAvailable (q : Virtqueue) : Virtqueue :=
  { q with chainsTaken := q.chainsTaken + 1 }

/-- The chain the driver made available next, if there is one. -/
def nextChain (q : Virtqueue) (s : Space) : Except QueueError (Option Chain) :=
  match q.nextHead s with
  | .error e => .error e
  | .ok none => .ok none
  | .ok (some head) =>
    match q.chainAt s head with
    | .error e => .error e
    | .ok chain => .ok (some chain)

/-- Flag in the available ring: the driver wants no interrupts. -/
def noInterruptFlag : UInt16 := 1

/-- The driver wants an interrupt for returned buffers. If its wish cannot be read, it gets one. -/
def wantsInterrupt (q : Virtqueue) (s : Space) : Bool :=
  match s.read16 q.layout.avail with
  | .error _ => true
  | .ok flags => flags &&& noInterruptFlag == 0

/-! ### The used ring -/

def usedIndexAddr (q : Virtqueue) : UInt64 := q.layout.used + 2

def usedEntryAddr (q : Virtqueue) : UInt64 :=
  q.layout.used + 4 + 8 * (q.chainsReturned % q.layout.size).toUInt64

/-- An entry of the used ring: the head of a chain and the number of bytes written to it. -/
def encodeUsed (head : UInt16) (len : UInt32) : List UInt8 :=
  LittleEndian.encode 4 head.toNat ++ LittleEndian.encode 4 len.toNat

@[simp] theorem length_encodeUsed (head : UInt16) (len : UInt32) :
    (encodeUsed head len).length = 8 := by
  simp [encodeUsed]

/-- Guest RAM with the next used entry filled but not yet published. -/
def storeUsed (q : Virtqueue) (s : Space) (head : UInt16) (len : UInt32) :
    Except MemoryError Memory.Ram :=
  s.write q.usedEntryAddr (encodeUsed head len)

/-- Guest RAM with the next used entry published. -/
def publishUsed (q : Virtqueue) (s : Space) : Except MemoryError Memory.Ram :=
  s.write16 q.usedIndexAddr (q.chainsReturned + 1)

/-- Fill the next used entry, then publish it: guest RAM afterwards, and whether both worked. -/
def putUsed (q : Virtqueue) (s : Space) (head : UInt16) (len : UInt32) :
    Memory.Ram × Except MemoryError Unit :=
  match q.storeUsed s head len with
  | .error e => (s.ram, .error e)
  | .ok ram =>
    match q.publishUsed { s with ram } with
    | .error e => (ram, .error e)
    | .ok ram => (ram, .ok ())

def stepUsed (q : Virtqueue) : Virtqueue :=
  { q with chainsReturned := q.chainsReturned + 1 }

/-- Flag in the used ring: the device wants no notifications. -/
def noNotifyFlag : UInt16 := 1

/-- Guest RAM with the device's wish for notifications written into the used ring. -/
def putWish (q : Virtqueue) (s : Space) (wanted : Bool) : Except MemoryError Memory.Ram :=
  s.write16 q.layout.used (if wanted then 0 else noNotifyFlag)

end Virtqueue

end VirtioMmio.Queue
