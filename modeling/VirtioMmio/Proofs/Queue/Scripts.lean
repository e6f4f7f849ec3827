import VirtioMmio.Queue.Virtqueue

/-!
What a queue asks of guest memory, one access after another. A `Script` is an operation cut at its
accesses: what comes next depends on the answers so far. `run_script` says that the scripts of a
queue, carried out in one space, are its operations. `Runs` lets memory and mappings be anything at
each access, as they are under a driver that never stops.
-/

namespace VirtioMmio.Queue

open Dma (Space)
open Memory (Rights)
open Vring (Chain Descriptor)

/-! ### Accesses -/

/-- What a read or a write is for. -/
inductive Aim where
  -- An entry of the descriptor table.
  | entry (i : UInt16)
  -- An entry of the indirect table of `len` bytes at `table`.
  | nested (table : UInt64) (len : Nat) (i : UInt16)
  -- Flags, index and next entry of the available ring.
  | driverFlags
  | availIndex
  | availEntry
  -- Flags, index and next entry of the used ring.
  | deviceFlags
  | usedIndex
  | usedEntry
  deriving DecidableEq

inductive Access where
  | checkBuffer (addr : UInt64) (len : Nat) (access : Rights)
  | checkTable (addr : UInt64) (len : Nat)
  | read (aim : Aim) (addr : UInt64) (len : Nat)
  | write (aim : Aim) (addr : UInt64) (bytes : List UInt8)

/-- The bytes that were read, none for other accesses, or why the access was refused. -/
abbrev Answer := Except MemoryError (List UInt8)

/-- Guest RAM after an access, and the answer. -/
def Access.perform (s : Space) : Access → Memory.Ram × Answer
  | .checkBuffer addr len access => (s.ram, (s.check addr len access).map fun _ => [])
  | .checkTable addr len => (s.ram, (s.check addr len .reading).map fun _ => [])
  | .read _ addr len => (s.ram, s.read addr len)
  | .write _ addr bytes =>
    match s.write addr bytes with
    | .error e => (s.ram, .error e)
    | .ok ram => (ram, .ok [])

/-- An access and its answer. -/
structure Event where
  access : Access
  answer : Answer

/-! ### Scripts -/

/-- An operation cut at its accesses. -/
inductive Script (α : Type) where
  | done (result : α)
  | ask (access : Access) (rest : Answer → Script α)

namespace Script

variable {α β ε : Type}

/-- Carry a script out in one space, whose RAM changes by the writes of the script only. -/
def run : Script α → Space → Memory.Ram × α
  | .done result, s => (s.ram, result)
  | .ask access rest, s =>
    (rest (access.perform s).2).run { s with ram := (access.perform s).1 }

/-- The script may log these events and come to this result. Every access is made in a space of its
own, so memory, regions and mappings may change in between. -/
inductive Runs : Script α → List Event → α → Prop
  | done (result : α) : Runs (.done result) [] result
  | ask {access : Access} {rest : Answer → Script α} {log : List Event} {result : α} (s : Space)
      (onward : Runs (rest (access.perform s).2) log result) :
      Runs (.ask access rest) (⟨access, (access.perform s).2⟩ :: log) result

/-- What happens in one space may happen. -/
theorem exists_runs (script : Script α) (s : Space) :
    ∃ log, script.Runs log (script.run s).2 := by
  induction script generalizing s with
  | done result => exact ⟨[], .done result⟩
  | ask access rest ih =>
    obtain ⟨log, onward⟩ := ih (access.perform s).2 { s with ram := (access.perform s).1 }
    exact ⟨_, .ask s onward⟩

/-- Make one access; `refused` says what its refusal means and `read` what its answer does. -/
def once (access : Access) (refused : MemoryError → ε) (read : List UInt8 → α) :
    Script (Except ε α) :=
  .ask access fun
    | .error e => .done (.error (refused e))
    | .ok bytes => .done (.ok (read bytes))

/-- One script after another. An error of the first one ends both. -/
def andThen : Script (Except ε α) → (α → Script (Except ε β)) → Script (Except ε β)
  | .done (.error e), _ => .done (.error e)
  | .done (.ok a), onward => onward a
  | .ask access rest, onward => .ask access fun answer => (rest answer).andThen onward

theorem run_andThen (first : Script (Except ε α)) (second : α → Script (Except ε β)) (s : Space) :
    (first.andThen second).run s =
      match first.run s with
      | (ram, .error e) => (ram, .error e)
      | (ram, .ok a) => (second a).run { s with ram } := by
  induction first generalizing s with
  | done result => cases result <;> rfl
  | ask access rest ih => exact ih _ _

theorem runs_once_iff {access : Access} {refused : MemoryError → ε} {read : List UInt8 → α}
    {log : List Event} {result : Except ε α} :
    (once access refused read).Runs log result ↔
      ∃ s, log = [⟨access, (access.perform s).2⟩] ∧
        result = match (access.perform s).2 with
          | .error e => .error (refused e)
          | .ok bytes => .ok (read bytes) := by
  constructor
  · intro runs
    cases runs with
    | ask s onward =>
      refine ⟨s, ?_⟩
      generalize (access.perform s).2 = answer at onward
      cases answer <;> cases onward <;> exact ⟨rfl, rfl⟩
  · rintro ⟨s, rfl, rfl⟩
    apply Runs.ask s
    cases (access.perform s).2 <;> exact .done _

/-- A log of two scripts is that of a first one that failed, or one of each. -/
theorem runs_andThen {first : Script (Except ε α)} {second : α → Script (Except ε β)}
    {log : List Event} {result : Except ε β} (runs : (first.andThen second).Runs log result) :
    (∃ e, first.Runs log (.error e) ∧ result = .error e) ∨
      ∃ a front back, log = front ++ back ∧ first.Runs front (.ok a) ∧
        (second a).Runs back result := by
  induction first generalizing log with
  | done found =>
    cases found with
    | error e =>
      cases runs
      exact .inl ⟨e, .done _, rfl⟩
    | ok a => exact .inr ⟨a, [], log, rfl, .done _, runs⟩
  | ask access rest ih =>
    cases runs with
    | ask s onward =>
      rcases ih _ onward with ⟨e, failed, rfl⟩ | ⟨a, front, back, rfl, worked, onward⟩
      · exact .inl ⟨e, .ask s failed, rfl⟩
      · exact .inr ⟨a, _ :: front, back, rfl, .ask s worked, onward⟩

end Script

/-! ### The scripts of a queue -/

def readWord (aim : Aim) (addr : UInt64) : Script (Except QueueError UInt16) :=
  .once (.read aim addr 2) .buffer fun bytes => .ofNat (LittleEndian.decode bytes)

def readEntry (aim : Aim) (addr : UInt64) : Script (Except QueueError Descriptor) :=
  .once (.read aim addr 16) .buffer .decode

def bufferScript (seenWritable : Bool) (d : Descriptor) : Script (Except QueueError Bool) :=
  if !d.isWritable && seenWritable then .done (.error .orderViolation)
  else
    .once (.checkBuffer d.addr d.len.toNat (if d.isWritable then .writing else .reading)) .buffer
      fun _ => d.isWritable

/-- The walk through a table. `aim` tells which entry of which table a read is for. -/
def followScript (aim : UInt16 → Aim) (table : UInt64) (count : UInt16)
    (enter : Descriptor → Bool → List Descriptor → Script (Except QueueError (List Descriptor))) :
    Nat → UInt16 → Bool → List Descriptor → Script (Except QueueError (List Descriptor))
  | 0, index, _, _ =>
    if count ≤ index then .done (.error (.descriptorIndex index count))
    else .done (.error (.chainTooLong count))
  | budget + 1, index, seenWritable, taken =>
    if count ≤ index then .done (.error (.descriptorIndex index count))
    else
      (readEntry (aim index) (entryAddr table index)).andThen fun d =>
        if d.isIndirect then enter d seenWritable taken
        else
          (bufferScript seenWritable d).andThen fun seenWritable =>
            if d.hasNext then
              followScript aim table count enter budget d.next seenWritable (d :: taken)
            else .done (.ok (d :: taken))

def indirectScript (d : Descriptor) (seenWritable : Bool) (taken : List Descriptor) :
    Script (Except QueueError (List Descriptor)) :=
  let len := d.len.toNat
  if len = 0 ∨ len % 16 ≠ 0 ∨ maxIndirect < len / 16 then .done (.error .badIndirect)
  else
    (Script.once (.checkTable d.addr len) .buffer fun _ => ()).andThen fun _ =>
      let count := UInt16.ofNat (len / 16)
      followScript (.nested d.addr len) d.addr count (fun _ _ _ => .done (.error .badIndirect))
        count.toNat 0 seenWritable taken

namespace Virtqueue

variable (q : Virtqueue)

def enterScript (d : Descriptor) (seenWritable : Bool) (taken : List Descriptor) :
    Script (Except QueueError (List Descriptor)) :=
  if !q.indirect || d.hasNext then .done (.error .badIndirect)
  else indirectScript d seenWritable taken

def headScript : Script (Except QueueError (Option UInt16)) :=
  (readWord .availIndex q.availIndexAddr).andThen fun published =>
    let ahead := published - q.chainsTaken
    if ahead = 0 then .done (.ok none)
    else if q.layout.size < ahead then .done (.error (.availOverrun ahead))
    else (readWord .availEntry q.availEntryAddr).andThen fun head => .done (.ok (some head))

def chainScript (head : UInt16) : Script (Except QueueError Chain) :=
  (followScript .entry q.layout.desc q.layout.size q.enterScript q.layout.size.toNat head false
    []).andThen fun taken => .done (.ok ⟨head, taken.reverse⟩)

def takeScript : Script (Except QueueError (Option Chain)) :=
  q.headScript.andThen fun
    | none => .done (.ok none)
    | some head => (q.chainScript head).andThen fun chain => .done (.ok (some chain))

def giveScript (head : UInt16) (len : UInt32) : Script (Except MemoryError Unit) :=
  (Script.once (.write .usedEntry q.usedEntryAddr (encodeUsed head len)) id fun _ => ()).andThen
    fun _ => .once (.write .usedIndex q.usedIndexAddr
      (LittleEndian.encode 2 (q.chainsReturned + 1).toNat)) id fun _ => ()

def interruptScript : Script Bool :=
  .ask (.read .driverFlags q.layout.avail 2) fun
    | .error _ => .done true
    | .ok bytes => .done (UInt16.ofNat (LittleEndian.decode bytes) &&& noInterruptFlag == 0)

def wishScript (wanted : Bool) : Script (Except MemoryError Unit) :=
  .once (.write .deviceFlags q.layout.used
    (LittleEndian.encode 2 (if wanted then (0 : UInt16) else noNotifyFlag).toNat)) id fun _ => ()

end Virtqueue

/-! ### Scripts are operations -/

/-- What a queue does with its rings. -/
inductive Operation where
  | take
  | give (head : UInt16) (len : UInt32)
  | interrupt
  | wish (wanted : Bool)

/-- What an operation results in. -/
@[reducible] def Operation.Result : Operation → Type
  | .take => Except QueueError (Option Chain)
  | .give .. => Except MemoryError Unit
  | .interrupt => Bool
  | .wish _ => Except MemoryError Unit

namespace Virtqueue

/-- Guest RAM after an operation, and its result. -/
def perform (q : Virtqueue) (s : Space) : (op : Operation) → Memory.Ram × op.Result
  | .take => (s.ram, q.nextChain s)
  | .give head len => q.putUsed s head len
  | .interrupt => (s.ram, q.wantsInterrupt s)
  | .wish wanted =>
    match q.putWish s wanted with
    | .error e => (s.ram, .error e)
    | .ok ram => (ram, .ok ())

def script (q : Virtqueue) : (op : Operation) → Script op.Result
  | .take => q.takeScript
  | .give head len => q.giveScript head len
  | .interrupt => q.interruptScript
  | .wish wanted => q.wishScript wanted

end Virtqueue

section Run

variable (s : Space)

theorem run_readWord (aim : Aim) (addr : UInt64) :
    (readWord aim addr).run s = (s.ram, (s.read16 addr).mapError .buffer) := by
  simp only [readWord, Script.once, Script.run, Access.perform, Space.read16]
  cases s.read addr 2 <;> rfl

theorem run_readEntry (aim : Aim) (addr : UInt64) :
    (readEntry aim addr).run s = (s.ram, (s.readDescriptor addr).mapError .buffer) := by
  simp only [readEntry, Script.once, Script.run, Access.perform, Space.readDescriptor]
  cases s.read addr 16 <;> rfl

theorem run_bufferScript (seen : Bool) (d : Descriptor) :
    (bufferScript seen d).run s = (s.ram, checkBuffer s seen d) := by
  simp only [bufferScript, checkBuffer]
  split
  · rfl
  · simp only [Script.once, Script.run, Access.perform]
    cases s.check d.addr d.len.toNat (if d.isWritable then .writing else .reading) <;> rfl

variable {s}

theorem run_followScript {aim : UInt16 → Aim} {table : UInt64} {count : UInt16}
    {script : Descriptor → Bool → List Descriptor → Script (Except QueueError (List Descriptor))}
    {enter : Descriptor → Bool → List Descriptor → Except QueueError (List Descriptor)}
    (entered : ∀ d seen taken, (script d seen taken).run s = (s.ram, enter d seen taken))
    (budget : Nat) (index : UInt16) (seen : Bool) (taken : List Descriptor) :
    (followScript aim table count script budget index seen taken).run s =
      (s.ram, follow s table count enter budget index seen taken) := by
  -- Script and walk branch at the same places, each time on what the same access answers.
  induction budget generalizing index seen taken with
  | zero =>
    rw [followScript, follow]
    split <;> rfl
  | succ budget ih =>
    rw [followScript, follow]
    split
    · rfl
    · rw [Script.run_andThen, run_readEntry]
      cases s.readDescriptor (entryAddr table index) with
      | error e => rfl
      | ok d =>
        dsimp only [Except.mapError]
        split
        · exact entered d seen taken
        · rw [Script.run_andThen, run_bufferScript]
          cases checkBuffer s seen d with
          | error e => rfl
          | ok seen =>
            dsimp only
            split
            · exact ih d.next seen (d :: taken)
            · rfl

theorem run_indirectScript (d : Descriptor) (seen : Bool) (taken : List Descriptor) :
    (indirectScript d seen taken).run s = (s.ram, followIndirect s d seen taken) := by
  simp only [indirectScript, followIndirect]
  split
  · rfl
  · rw [Script.run_andThen]
    simp only [Script.once, Script.run, Access.perform]
    cases s.check d.addr d.len.toNat .reading with
    | error e => rfl
    | ok => exact run_followScript (fun _ _ _ => rfl) ..

variable (q : Virtqueue)

theorem run_enterScript (d : Descriptor) (seen : Bool) (taken : List Descriptor) :
    (q.enterScript d seen taken).run s = (s.ram, q.enter s d seen taken) := by
  simp only [Virtqueue.enterScript, Virtqueue.enter]
  split
  · rfl
  · exact run_indirectScript d seen taken

theorem run_headScript : q.headScript.run s = (s.ram, q.nextHead s) := by
  rw [Virtqueue.headScript, Script.run_andThen, run_readWord, Virtqueue.nextHead]
  cases s.read16 q.availIndexAddr with
  | error e => rfl
  | ok published =>
    dsimp only [Except.mapError]
    split
    · rfl
    · split
      · rfl
      · rw [Script.run_andThen, run_readWord]
        cases s.read16 q.availEntryAddr <;> rfl

theorem run_chainScript (head : UInt16) :
    (q.chainScript head).run s = (s.ram, q.chainAt s head) := by
  rw [Virtqueue.chainScript, Script.run_andThen, run_followScript (run_enterScript q),
    Virtqueue.chainAt]
  cases follow s q.layout.desc q.layout.size (q.enter s) q.layout.size.toNat head false [] <;> rfl

theorem run_takeScript : q.takeScript.run s = (s.ram, q.nextChain s) := by
  rw [Virtqueue.takeScript, Script.run_andThen, run_headScript, Virtqueue.nextChain]
  cases q.nextHead s with
  | error e => rfl
  | ok next =>
    cases next with
    | none => rfl
    | some head =>
      dsimp only
      rw [Script.run_andThen, run_chainScript]
      cases q.chainAt s head <;> rfl

theorem run_giveScript (head : UInt16) (len : UInt32) :
    (q.giveScript head len).run s = q.putUsed s head len := by
  rw [Virtqueue.giveScript, Script.run_andThen, Virtqueue.putUsed, Virtqueue.storeUsed]
  simp only [Script.once, Script.run, Access.perform]
  cases s.write q.usedEntryAddr (Virtqueue.encodeUsed head len) with
  | error e => rfl
  | ok ram =>
    simp only [Script.run, Virtqueue.publishUsed, Space.write16]
    cases Space.write { s with ram } q.usedIndexAddr
      (LittleEndian.encode 2 (q.chainsReturned + 1).toNat) <;> rfl

/-- A script that is carried out in one space is the operation there. -/
theorem run_script (op : Operation) : (q.script op).run s = q.perform s op := by
  cases op with
  | take => exact run_takeScript q
  | give head len => exact run_giveScript q head len
  | interrupt =>
    simp only [Virtqueue.script, Virtqueue.perform, Virtqueue.interruptScript, Script.run,
      Access.perform, Virtqueue.wantsInterrupt, Space.read16]
    cases s.read q.layout.avail 2 <;> rfl
  | wish wanted =>
    simp only [Virtqueue.script, Virtqueue.perform, Virtqueue.wishScript, Script.once, Script.run,
      Access.perform, Virtqueue.putWish, Space.write16]
    cases s.write q.layout.used
      (LittleEndian.encode 2 (if wanted then (0 : UInt16) else Virtqueue.noNotifyFlag).toNat) <;> rfl

/-- What an operation does in one space is among what its script may do. -/
theorem exists_runs_perform (op : Operation) :
    ∃ log, (q.script op).Runs log (q.perform s op).2 := by
  rw [← run_script]
  exact (q.script op).exists_runs s

end Run

end VirtioMmio.Queue
