import Mathlib.Data.List.Induction
import VirtioMmio.Proofs.Device.Effects
import VirtioMmio.Proofs.Interrupt.Edges
import VirtioMmio.Proofs.Queue.Enumeration

/-!
The notes of a register file over any run of writes and takes. Main results: `noted_perform`, the
inversion of one operation; `Tracked.run`, by which a note stands exactly if what it says happened
since the notes were taken last; and `takes_report`, by which no take loses or repeats anything.

What happened is read off the operations and the registers before each of them. One write makes one
note at most; the rest is induction on the operations from the last one back.
-/

namespace VirtioMmio

open Interrupt (Cause Causes)
open Queue (Mask)

/-! ### Sets that grow -/

namespace Queue.Mask

theorem contains_empty (n : Nat) : Mask.empty.contains n = false :=
  Nat.zero_testBit n

theorem contains_insert_iff (m : Mask) {queue : UInt16} (small : queue < 64) (n : Nat) :
    (m.insert queue).contains n = true ↔ queue.toNat = n ∨ m.contains n = true := by
  rw [contains_insert m queue small, Bool.or_eq_true, beq_iff_eq, or_comm, eq_comm]

theorem insert_ne_empty (m : Mask) {queue : UInt16} (small : queue < 64) :
    m.insert queue ≠ .empty := by
  intro empty
  have member := (m.contains_insert_iff small queue.toNat).mpr (.inl rfl)
  rw [empty, contains_empty] at member
  cases member

end Queue.Mask

namespace Interrupt.Causes

theorem has_union (c d : Causes) (cause : Cause) :
    (c.union d).has cause = (c.has cause || d.has cause) := by
  cases cause <;> rfl

theorem union_ne_nothing (c : Causes) {d : Causes} (some : d.isEmpty = false) :
    c.union d ≠ .nothing := by
  intro nothing
  obtain ⟨cause, has⟩ := d.isEmpty_eq_false_iff.mp some
  have member := c.has_union d cause
  rw [nothing, has, Bool.or_true] at member
  cases cause <;> cases member

end Interrupt.Causes

namespace Transport

/-! ### Runs -/

inductive Operation where
  | write (offset : UInt64) (size : UInt8) (value : UInt64)
  | take
  deriving DecidableEq, Repr

/-- A write to a register, in the width that registers have. -/
def Operation.put (r : Register) (value : UInt64) : Operation :=
  .write r.offset 4 value

inductive Answer where
  | written
  | refused (e : AccessError)
  | taken (events : Events)
  deriving DecidableEq, Repr

/-- A register file, and the machine that its writes act on. -/
abbrev Port := RegisterFile × Machine

namespace Port

def events (p : Port) : Events := p.1.events

def perform (p : Port) : Operation → Port × Answer
  | .write offset size value =>
    match p.1.write p.2 offset size value with
    | .ok after => (after, .written)
    | .error e => (p, .refused e)
  | .take =>
    let (events, registers) := p.1.collectEvents
    ((registers, p.2), .taken events)

/-- The port after some operations, and the answer to each of them. -/
def run (p : Port) : List Operation → Port × List Answer
  | [] => (p, [])
  | operation :: later =>
    let (p, answer) := p.perform operation
    let (p, answers) := run p later
    (p, answer :: answers)

theorem run_append (p : Port) (first second : List Operation) :
    p.run (first ++ second) =
      (((p.run first).1.run second).1, (p.run first).2 ++ ((p.run first).1.run second).2) := by
  induction first generalizing p with
  | nil => rfl
  | cons operation first ih => simp only [List.cons_append, run, ih]

theorem length_run (p : Port) (operations : List Operation) :
    (p.run operations).2.length = operations.length := by
  induction operations generalizing p with
  | nil => rfl
  | cons operation later ih => simp only [run, List.length_cons, ih]

theorem length_perform (p : Port) (operation : Operation) :
    (p.perform operation).1.1.queues.length = p.1.queues.length := by
  cases operation with
  | write offset size value =>
    simp only [perform]
    split
    next registers machine written =>
      exact congrArg (·.2.2.1) (RegisterFile.fixed_write written).1
    · rfl
  | take => rfl

theorem length_queues_run (p : Port) (operations : List Operation) :
    (p.run operations).1.1.queues.length = p.1.queues.length := by
  induction operations generalizing p with
  | nil => rfl
  | cons operation later ih => exact (ih _).trans (length_perform p operation)

/-! ### What happens -/

/-- The driver rings for a queue. -/
def Rings (queue : Nat) (p : Port) (operation : Operation) : Prop :=
  ∃ value, operation = .put .queueNotify value ∧
    value.toUInt32.toNat = queue ∧ queue < p.1.queues.length

/-- The driver makes the selected queue ready. -/
def Readies (queue : Nat) (p : Port) (operation : Operation) : Prop :=
  ∃ value, operation = .put .queueReady value ∧ value.toUInt32 ≠ 0 ∧
    p.1.config.queue.toNat = queue ∧ queue < p.1.queues.length

def Acknowledges (cause : Cause) (_ : Port) (operation : Operation) : Prop :=
  ∃ value, operation = .put .interruptAcknowledge value ∧
    (Causes.ofBits value.toUInt32).has cause = true

/-- The driver resets the device, or sets the driver-ok bit that was not set before. -/
def TurnsStatus (p : Port) (operation : Operation) : Prop :=
  ∃ value, operation = .put .status value ∧
    (value.toUInt32 = 0 ∨
      p.1.config.status.driverOk = false ∧
        (p.perform operation).1.1.config.status.driverOk = true)

theorem put_inj {r r' : Register} {value value' : UInt64} :
    Operation.put r value = .put r' value' ↔ r = r' ∧ value = value' := by
  constructor
  · intro same
    injection same with offset _ value
    exact ⟨Register.offset_inj offset, value⟩
  · rintro ⟨rfl, rfl⟩
    rfl

theorem put_ne_take (r : Register) (value : UInt64) : Operation.put r value ≠ .take :=
  Operation.noConfusion

theorem rings_put {queue : Nat} {p : Port} {r : Register} {value : UInt64} :
    p.Rings queue (.put r value) ↔
      r = .queueNotify ∧ value.toUInt32.toNat = queue ∧ queue < p.1.queues.length := by
  simp only [Rings, put_inj, and_assoc, exists_and_left, exists_eq_left']

theorem readies_put {queue : Nat} {p : Port} {r : Register} {value : UInt64} :
    p.Readies queue (.put r value) ↔
      r = .queueReady ∧ value.toUInt32 ≠ 0 ∧ p.1.config.queue.toNat = queue ∧
        queue < p.1.queues.length := by
  simp only [Readies, put_inj, and_assoc, exists_and_left, exists_eq_left']

theorem acknowledges_put {cause : Cause} {p : Port} {r : Register} {value : UInt64} :
    p.Acknowledges cause (.put r value) ↔
      r = .interruptAcknowledge ∧ (Causes.ofBits value.toUInt32).has cause = true := by
  simp only [Acknowledges, put_inj, and_assoc, exists_and_left, exists_eq_left']

theorem turnsStatus_put {p : Port} {r : Register} {value : UInt64} :
    p.TurnsStatus (.put r value) ↔
      r = .status ∧ (value.toUInt32 = 0 ∨ p.1.config.status.driverOk = false ∧
        (p.perform (.put r value)).1.1.config.status.driverOk = true) := by
  constructor
  · rintro ⟨value', same, turns⟩
    obtain ⟨rfl, rfl⟩ := put_inj.mp same
    exact ⟨rfl, turns⟩
  · rintro ⟨rfl, turns⟩
    exact ⟨value, rfl, turns⟩

/-- Everything an operation can leave in the notes. -/
inductive Noted (p : Port) : Operation → Events → Prop
  | rang {value : UInt64} (known : value.toUInt32.toNat < p.1.queues.length) :
    Noted p (.put .queueNotify value) (p.events.noteNotify value.toUInt32.toUInt16)
  | readied {value : UInt64} (asked : value.toUInt32 ≠ 0)
    (known : p.1.config.queue.toNat < p.1.queues.length) :
    Noted p (.put .queueReady value) (p.events.noteReady p.1.config.queue)
  | acknowledged {value : UInt64} (some : (Causes.ofBits value.toUInt32).isEmpty = false) :
    Noted p (.put .interruptAcknowledge value)
      (p.events.noteAcknowledge (.ofBits value.toUInt32))
  | turned {value : UInt64} (turns : p.TurnsStatus (.put .status value)) :
    Noted p (.put .status value) p.events.noteStatus
  | unnoted {operation : Operation} (unrung : ∀ queue, ¬ p.Rings queue operation)
    (unready : ∀ queue, ¬ p.Readies queue operation)
    (unacknowledged : ∀ cause, ¬ p.Acknowledges cause operation)
    (unturned : ¬ p.TurnsStatus operation) (kept : operation ≠ .take) :
    Noted p operation p.events
  | taken : Noted p .take .none

theorem perform_put (p : Port) (r : Register) (value : UInt64) :
    p.perform (.put r value) =
      match p.1.writeRegister p.2 value.toUInt32 r with
      | some after => (after, .written)
      | none => (p, .refused (.readOnly r.offset)) := by
  simp only [perform, Operation.put, RegisterFile.write_register]
  cases p.1.writeRegister p.2 value.toUInt32 r <;> rfl

/-- A write that hits no register leaves no note. -/
theorem noted_elsewhere (p : Port) {offset : UInt64} {size : UInt8} (value : UInt64)
    (elsewhere : ∀ r : Register, ¬ (offset = r.offset ∧ size = 4)) :
    p.Noted (.write offset size value) (p.perform (.write offset size value)).1.events := by
  have unput (r : Register) (value' : UInt64) :
      Operation.write offset size value ≠ .put r value' := by
    intro same
    injection same with place width
    exact elsewhere r ⟨place, width⟩
  have same : (p.perform (.write offset size value)).1.events = p.events := by
    simp only [perform]
    split
    next written =>
      obtain ⟨-, block, changed⟩ := RegisterFile.write_elsewhere elsewhere written
      show Port.events _ = p.events
      rw [events, changed]
      rfl
    · rfl
  rw [same]
  -- Whatever makes a note is a write to a register.
  refine .unnoted ?_ ?_ ?_ ?_ Operation.noConfusion
  · rintro queue ⟨value', put, -⟩
    exact unput _ _ put
  · rintro queue ⟨value', put, -⟩
    exact unput _ _ put
  · rintro cause ⟨value', put, -⟩
    exact unput _ _ put
  · rintro ⟨value', put, -⟩
    exact unput _ _ put

theorem noted_notify (p : Port) (value : UInt64) :
    p.Noted (.put .queueNotify value) (p.perform (.put .queueNotify value)).1.events := by
  simp only [perform_put, RegisterFile.writeRegister, RegisterFile.writeNotify]
  by_cases known : value.toUInt32.toNat < p.1.queues.length
  · rw [if_pos known]
    exact .rang known
  · rw [if_neg known]
    refine .unnoted (fun queue rings => ?_) ?_ ?_ ?_ (put_ne_take _ _)
    · obtain ⟨-, rfl, small⟩ := rings_put.mp rings
      exact known small
    · simp [readies_put]
    · simp [acknowledges_put]
    · simp [turnsStatus_put]

theorem noted_ready (p : Port) (value : UInt64) :
    p.Noted (.put .queueReady value) (p.perform (.put .queueReady value)).1.events := by
  simp only [perform_put, RegisterFile.writeRegister, RegisterFile.writeReady]
  by_cases asked : value.toUInt32 ≠ 0 ∧ p.1.config.queue.toNat < p.1.queues.length
  · have noting : ¬ (value.toUInt32 = 0 || p.1.selected?.isNone) = true := by
      simpa [RegisterFile.selected?] using asked
    rw [if_neg noting]
    exact .readied asked.1 asked.2
  · have idle : (value.toUInt32 = 0 || p.1.selected?.isNone) = true := by
      simpa [RegisterFile.selected?, Decidable.or_iff_not_imp_left] using asked
    rw [if_pos idle]
    refine .unnoted ?_ (fun queue readies => ?_) ?_ ?_ (put_ne_take _ _)
    · simp [rings_put]
    · obtain ⟨-, nonzero, rfl, small⟩ := readies_put.mp readies
      exact asked ⟨nonzero, small⟩
    · simp [acknowledges_put]
    · simp [turnsStatus_put]

theorem noted_acknowledge (p : Port) (value : UInt64) :
    p.Noted (.put .interruptAcknowledge value)
      (p.perform (.put .interruptAcknowledge value)).1.events := by
  simp only [perform_put, RegisterFile.writeRegister, RegisterFile.writeAcknowledge]
  cases empty : (Causes.ofBits value.toUInt32).isEmpty with
  | false => exact .acknowledged empty
  | true =>
    refine .unnoted ?_ ?_ (fun cause acknowledges => ?_) ?_ (put_ne_take _ _)
    · simp [rings_put]
    · simp [readies_put]
    · obtain ⟨-, has⟩ := acknowledges_put.mp acknowledges
      have some := (Causes.isEmpty_eq_false_iff _).mpr ⟨cause, has⟩
      rw [empty] at some
      cases some
    · simp [turnsStatus_put]

theorem perform_status (p : Port) (value : UInt64) :
    (p.perform (.put .status value)).1 = p.1.writeStatus p.2 value.toUInt32 := by
  rw [perform_put]
  rfl

/-- A status that is no reset is noted if it sets the driver-ok bit, and otherwise leaves it. -/
theorem perform_status_nonzero (p : Port) {value : UInt64} (nonzero : value.toUInt32 ≠ 0) :
    (p.1.config.status.driverOk = false ∧
        (p.perform (.put .status value)).1.1.config.status.driverOk = true ∧
        (p.perform (.put .status value)).1.events = p.events.noteStatus) ∨
      ((p.perform (.put .status value)).1.1.config.status.driverOk = true →
          p.1.config.status.driverOk = true) ∧
        (p.perform (.put .status value)).1.events = p.events := by
  rw [perform_status]
  rcases p.1.config.writeStatus_nonzero nonzero with refused | ⟨status, -, taken⟩
  · have still : p.1.writeStatus p.2 value.toUInt32 = p := by
      simp only [RegisterFile.writeStatus, refused]
    rw [still]
    exact .inr ⟨id, rfl⟩
  · simp only [RegisterFile.writeStatus, taken]
    cases sets : status.driverOk && !p.1.config.status.driverOk with
    | true =>
      rw [Bool.and_eq_true, Bool.not_eq_true'] at sets
      exact .inl ⟨sets.2, sets.1, rfl⟩
    | false =>
      refine .inr ⟨fun filled => ?_, rfl⟩
      have running : status.driverOk = true := filled
      rw [running, Bool.true_and, Bool.not_eq_false'] at sets
      exact sets

theorem noted_status (p : Port) (value : UInt64) :
    p.Noted (.put .status value) (p.perform (.put .status value)).1.events := by
  by_cases zero : value.toUInt32 = 0
  · have noted : (p.perform (.put .status value)).1.events = p.events.noteStatus := by
      rw [perform_status, zero]
      rfl
    rw [noted]
    exact .turned (turnsStatus_put.mpr ⟨rfl, .inl zero⟩)
  · rcases p.perform_status_nonzero zero with ⟨before, after, noted⟩ | ⟨kept, same⟩
    · rw [noted]
      exact .turned (turnsStatus_put.mpr ⟨rfl, .inr ⟨before, after⟩⟩)
    · rw [same]
      refine .unnoted ?_ ?_ ?_ (fun turns => ?_) (put_ne_take _ _)
      · simp [rings_put]
      · simp [readies_put]
      · simp [acknowledges_put]
      · obtain ⟨-, reset | ⟨before, set⟩⟩ := turnsStatus_put.mp turns
        · exact zero reset
        · rw [kept set] at before
          cases before

theorem noted_perform (p : Port) (operation : Operation) :
    p.Noted operation (p.perform operation).1.events := by
  cases operation with
  | take => exact .taken
  | write offset size value =>
    by_cases register : ∃ r : Register, offset = r.offset ∧ size = 4
    · obtain ⟨r, rfl, rfl⟩ := register
      change p.Noted (.put r value) (p.perform (.put r value)).1.events
      cases r with
      | queueNotify => exact p.noted_notify value
      | queueReady => exact p.noted_ready value
      | interruptAcknowledge => exact p.noted_acknowledge value
      | status => exact p.noted_status value
      | _ =>
        simp only [perform_put, RegisterFile.writeRegister]
        exact .unnoted (by simp [rings_put]) (by simp [readies_put]) (by simp [acknowledges_put])
          (by simp [turnsStatus_put]) (put_ne_take _ _)
    · exact p.noted_elsewhere value fun r same => register ⟨r, same⟩

/-! ### What stands in the notes -/

/-- Something happened since the notes were taken last. -/
def Since (edge : Port → Operation → Prop) (p : Port) (operations : List Operation) : Prop :=
  ∃ before operation after, operations = before ++ operation :: after ∧
    edge (p.run before).1 operation ∧ .take ∉ after

theorem not_since_nil (edge : Port → Operation → Prop) (p : Port) : ¬ Since edge p [] := by
  rintro ⟨before, operation, after, split, -⟩
  cases before <;> cases split

theorem since_concat (edge : Port → Operation → Prop) (p : Port) (operations : List Operation)
    (operation : Operation) :
    Since edge p (operations ++ [operation]) ↔
      edge (p.run operations).1 operation ∨ Since edge p operations ∧ operation ≠ .take := by
  constructor
  · rintro ⟨before, noted, after, split, happens, kept⟩
    rcases List.eq_nil_or_concat after with rfl | ⟨front, last, rfl⟩
    · -- It was the last operation of all that made it happen.
      obtain ⟨rfl, same⟩ := List.append_inj' split rfl
      cases same
      exact .inl happens
    · rw [List.concat_eq_append, ← List.cons_append, ← List.append_assoc] at split
      obtain ⟨rfl, same⟩ := List.append_inj' split rfl
      cases same
      rw [List.concat_eq_append, List.mem_append, List.mem_singleton, not_or] at kept
      exact .inr ⟨⟨before, noted, front, rfl, happens, kept.1⟩, Ne.symm kept.2⟩
  · rintro (happens | ⟨⟨before, noted, after, rfl, happens, kept⟩, other⟩)
    · exact ⟨operations, operation, [], rfl, happens, List.not_mem_nil⟩
    · refine ⟨before, noted, after ++ [operation], by simp, happens, ?_⟩
      rw [List.mem_append, List.mem_singleton, not_or]
      exact ⟨kept, Ne.symm other⟩

/-- A note that stands from when something happens until the notes are taken. -/
structure Tracked (stands : Events → Prop) (edge : Port → Operation → Prop) : Prop where
  nothing : ¬ stands .none
  untaken : ∀ p, ¬ edge p .take
  noted : ∀ {p operation events}, p.1.queues.length ≤ 64 → operation ≠ .take →
    Noted p operation events → (stands events ↔ edge p operation ∨ stands p.events)

theorem Tracked.run {stands : Events → Prop} {edge : Port → Operation → Prop}
    (tracked : Tracked stands edge) {p : Port} (fresh : p.events = .none)
    (few : p.1.queues.length ≤ 64) (operations : List Operation) :
    stands (p.run operations).1.events ↔ Since edge p operations := by
  induction operations using List.reverseRecOn with
  | nil =>
    have none : ¬ stands (p.run []).1.events := by
      rw [Port.run, fresh]
      exact tracked.nothing
    exact iff_of_false none (not_since_nil edge p)
  | append_singleton operations operation ih =>
    rw [run_append, since_concat, ← ih]
    change stands ((p.run operations).1.perform operation).1.events ↔ _
    have noted := noted_perform (p.run operations).1 operation
    by_cases take : operation = .take
    · -- Nothing stands after a take, and what happened before it counts no more.
      subst take
      have cleared : ((p.run operations).1.perform .take).1.events = .none := rfl
      rw [cleared]
      simp [tracked.nothing, tracked.untaken]
    · rw [tracked.noted (by rwa [length_queues_run]) take noted]
      simp [take]

/-- Below 64 a queue keeps its number when the register value is cut to 16 bits. -/
theorem toNat_toUInt16 {v : UInt32} (small : v.toNat < 64) : v.toUInt16.toNat = v.toNat := by
  rw [UInt32.toNat_toUInt16]
  omega

theorem tracked_notify (queue : Nat) :
    Tracked (·.notify.contains queue = true) (Rings queue) where
  nothing := by simp [Events.none, Mask.contains_empty]
  untaken := by rintro p ⟨value, ⟨⟩, -⟩
  noted := by
    intro p operation events few other noted
    cases noted with
    | @rang value known =>
      have below : value.toUInt32.toNat < 64 := Nat.lt_of_lt_of_le known few
      have number := toNat_toUInt16 below
      have small : value.toUInt32.toUInt16 < 64 := UInt16.lt_iff_toNat_lt.mpr (number ▸ below)
      rw [Events.noteNotify, Mask.contains_insert_iff _ small, number, rings_put]
      exact or_congr_left ⟨fun same => ⟨rfl, same, same ▸ known⟩, fun rings => rings.2.1⟩
    | readied asked known => simp [rings_put, Events.noteReady]
    | acknowledged some => simp [rings_put, Events.noteAcknowledge]
    | turned turns => simp [rings_put, Events.noteStatus]
    | unnoted unrung => simp [unrung]
    | taken => exact absurd rfl other

theorem tracked_readied (queue : Nat) :
    Tracked (·.readied.contains queue = true) (Readies queue) where
  nothing := by simp [Events.none, Mask.contains_empty]
  untaken := by rintro p ⟨value, ⟨⟩, -⟩
  noted := by
    intro p operation events few other noted
    cases noted with
    | rang known => simp [readies_put, Events.noteNotify]
    | @readied value asked known =>
      have small : p.1.config.queue < 64 :=
        UInt16.lt_iff_toNat_lt.mpr (Nat.lt_of_lt_of_le known few)
      rw [Events.noteReady, Mask.contains_insert_iff _ small, readies_put]
      exact or_congr_left
        ⟨fun same => ⟨rfl, asked, same, same ▸ known⟩, fun readies => readies.2.2.1⟩
    | acknowledged some => simp [readies_put, Events.noteAcknowledge]
    | turned turns => simp [readies_put, Events.noteStatus]
    | unnoted unrung unready => simp [unready]
    | taken => exact absurd rfl other

theorem tracked_acknowledge (cause : Cause) :
    Tracked (·.acknowledge.has cause = true) (Acknowledges cause) where
  nothing := by cases cause <;> simp [Events.none, Causes.nothing, Causes.has]
  untaken := by rintro p ⟨value, ⟨⟩, -⟩
  noted := by
    intro p operation events few other noted
    cases noted with
    | rang known => simp [acknowledges_put, Events.noteNotify]
    | readied asked known => simp [acknowledges_put, Events.noteReady]
    | acknowledged some =>
      rw [Events.noteAcknowledge, Causes.has_union, Bool.or_eq_true, acknowledges_put, or_comm]
      simp
    | turned turns => simp [acknowledges_put, Events.noteStatus]
    | unnoted unrung unready unacknowledged => simp [unacknowledged]
    | taken => exact absurd rfl other

theorem tracked_status : Tracked (·.statusFlag = true) TurnsStatus where
  nothing := by simp [Events.none]
  untaken := by rintro p ⟨value, ⟨⟩, -⟩
  noted := by
    intro p operation events few other noted
    cases noted with
    | rang known => simp [turnsStatus_put, Events.noteNotify]
    | readied asked known => simp [turnsStatus_put, Events.noteReady]
    | acknowledged some => simp [turnsStatus_put, Events.noteAcknowledge]
    | turned turns => simp [turns, Events.noteStatus]
    | unnoted unrung unready unacknowledged unturned => simp [unturned]
    | taken => exact absurd rfl other

/-! ### Flags -/

/-- The flags tell which details there are. -/
structure Flagged (e : Events) : Prop where
  ready : e.readyFlag = true ↔ e.readied ≠ .empty
  acknowledge : e.acknowledgeFlag = true ↔ e.acknowledge ≠ .nothing
  notify : e.notifyFlag = true ↔ e.notify ≠ .empty

theorem flagged_none : Flagged .none where
  ready := by simp [Events.none]
  acknowledge := by simp [Events.none]
  notify := by simp [Events.none]

theorem flagged_noted {p : Port} (few : p.1.queues.length ≤ 64) (flagged : Flagged p.events)
    {operation : Operation} {events : Events} (noted : Noted p operation events) :
    Flagged events := by
  cases noted with
  | @rang value known =>
    have below : value.toUInt32.toNat < 64 := Nat.lt_of_lt_of_le known few
    have small : value.toUInt32.toUInt16 < 64 :=
      UInt16.lt_iff_toNat_lt.mpr (toNat_toUInt16 below ▸ below)
    exact { flagged with notify := iff_of_true rfl (Mask.insert_ne_empty _ small) }
  | readied asked known =>
    have small : p.1.config.queue < 64 :=
      UInt16.lt_iff_toNat_lt.mpr (Nat.lt_of_lt_of_le known few)
    exact { flagged with ready := iff_of_true rfl (Mask.insert_ne_empty _ small) }
  | acknowledged some =>
    exact { flagged with acknowledge := iff_of_true rfl (Causes.union_ne_nothing _ some) }
  | turned turns => exact ⟨flagged.ready, flagged.acknowledge, flagged.notify⟩
  | unnoted => exact flagged
  | taken => exact flagged_none

theorem flagged_run {p : Port} (few : p.1.queues.length ≤ 64) (flagged : Flagged p.events)
    (operations : List Operation) : Flagged (p.run operations).1.events := by
  induction operations generalizing p with
  | nil => exact flagged
  | cons operation later ih =>
    have few' : (p.perform operation).1.1.queues.length ≤ 64 := by rwa [length_perform]
    exact ih few' (flagged_noted few flagged (noted_perform p operation))

theorem testBit_flagBits (e : Events) :
    e.flagBits.toNat.testBit 0 = e.readyFlag ∧ e.flagBits.toNat.testBit 1 = e.statusFlag ∧
      e.flagBits.toNat.testBit 2 = e.acknowledgeFlag ∧
      e.flagBits.toNat.testBit 3 = e.notifyFlag := by
  have bits : ∀ ready status acknowledge notify : Bool,
      let bits : UInt32 := (if ready then 1 else 0) ||| (if status then 2 else 0) |||
        (if acknowledge then 4 else 0) ||| (if notify then 8 else 0)
      bits.toNat.testBit 0 = ready ∧ bits.toNat.testBit 1 = status ∧
        bits.toNat.testBit 2 = acknowledge ∧ bits.toNat.testBit 3 = notify := by
    decide
  exact bits e.readyFlag e.statusFlag e.acknowledgeFlag e.notifyFlag

/-! ### What a take reports -/

/-- The notes tell exactly what happened since they were taken last. -/
structure Reports (p : Port) (operations : List Operation) (e : Events) : Prop where
  notify : ∀ queue, e.notify.contains queue = true ↔ Since (Rings queue) p operations
  readied : ∀ queue, e.readied.contains queue = true ↔ Since (Readies queue) p operations
  acknowledge : ∀ cause, e.acknowledge.has cause = true ↔ Since (Acknowledges cause) p operations
  readyBit : e.flagBits.toNat.testBit 0 = true ↔ e.readied ≠ .empty
  statusBit : e.flagBits.toNat.testBit 1 = true ↔ Since TurnsStatus p operations
  acknowledgeBit : e.flagBits.toNat.testBit 2 = true ↔ e.acknowledge ≠ .nothing
  notifyBit : e.flagBits.toNat.testBit 3 = true ↔ e.notify ≠ .empty

theorem reports_run {p : Port} (fresh : p.events = .none) (few : p.1.queues.length ≤ 64)
    (operations : List Operation) : Reports p operations (p.run operations).1.events := by
  have flagged : Flagged (p.run operations).1.events :=
    flagged_run few (fresh ▸ flagged_none) operations
  obtain ⟨ready, status, acknowledge, notify⟩ := testBit_flagBits (p.run operations).1.events
  exact {
    notify := fun queue => (tracked_notify queue).run fresh few operations
    readied := fun queue => (tracked_readied queue).run fresh few operations
    acknowledge := fun cause => (tracked_acknowledge cause).run fresh few operations
    readyBit := by rw [ready, flagged.ready]
    statusBit := by rw [status, tracked_status.run fresh few operations]
    acknowledgeBit := by rw [acknowledge, flagged.acknowledge]
    notifyBit := by rw [notify, flagged.notify] }

/-- The answer at a take is the record that the operations before it left. -/
theorem run_take (p : Port) (before after : List Operation) :
    (p.run (before ++ .take :: after)).2[before.length]? =
      some (.taken (p.run before).1.events) := by
  rw [run_append, List.getElem?_append_right (Nat.le_of_eq (length_run p before)), length_run,
    Nat.sub_self]
  rfl

/-- No take loses or repeats anything. Each one tells which queues were rung, which were made ready
and which causes were acknowledged since the take before it; its flags say what there is to tell,
and whether the device was reset or set going. The take right after it tells nothing. Both sets of
queues fall apart, bit by bit, into the list that the event pass goes through: exactly their
members, in increasing order. -/
theorem takes_report (p : Port) (fresh : p.events = .none) (few : p.1.queues.length ≤ 64)
    (before after : List Operation) :
    ∃ e, (p.run (before ++ .take :: after)).2[before.length]? = some (.taken e) ∧
      Reports p before e ∧
      (∀ later, after = .take :: later →
        (p.run (before ++ .take :: after)).2[before.length + 1]? = some (.taken .none)) ∧
      ∀ mask ∈ [e.notify, e.readied], mask.drain = mask.toList ∧ mask.drain.Pairwise (· < ·) ∧
        ∀ queue, mask.contains queue = true ↔ ∃ number ∈ mask.drain, number.toNat = queue := by
  -- A take answers with the record as it stands, so the record is all there is to judge.
  refine ⟨_, run_take p before after, reports_run fresh few before, ?_, fun mask _ => ?_⟩
  · rintro later rfl
    have split : before ++ .take :: .take :: later = (before ++ [.take]) ++ .take :: later := by
      rw [List.append_assoc]
      rfl
    have emptied : (p.run (before ++ [.take])).1.events = .none := by
      rw [run_append]
      rfl
    have second := run_take p (before ++ [.take]) later
    rw [← split, emptied, List.length_append] at second
    exact second
  · exact ⟨mask.drain_eq_toList, mask.drain_increasing, mask.contains_iff_drain⟩

/-- A register file with two queues at power-on. -/
def powerOn : Port :=
  (.new .net 256 2 (.new 0 [] []), { line := { intid := 48, pending := .nothing } })

/-- Queue one is rung twice and a queue that is not there once. The take tells of queue one, and the
next take of nothing. -/
theorem powerOn_rung :
    ∃ e,
      (powerOn.run [.put .queueNotify 1, .put .queueNotify 1, .put .queueNotify 5, .take,
        .take]).2[3]? = some (.taken e) ∧
      e.notify.contains 1 = true ∧ e.flagBits.toNat.testBit 3 = true ∧
      (powerOn.run [.put .queueNotify 1, .put .queueNotify 1, .put .queueNotify 5, .take,
        .take]).2[4]? = some (.taken .none) := by
  obtain ⟨e, taken, reports, second, -⟩ := takes_report powerOn rfl (by decide)
    [.put .queueNotify 1, .put .queueNotify 1, .put .queueNotify 5] [.take]
  have rings : Rings 1 powerOn (.put .queueNotify 1) := ⟨1, rfl, by decide, by decide⟩
  have rung : e.notify.contains 1 = true :=
    (reports.notify 1).mpr ⟨[], _, _, rfl, rings, by decide⟩
  have told : e.notify ≠ .empty := by
    intro empty
    rw [empty, Mask.contains_empty] at rung
    cases rung
  exact ⟨e, taken, rung, reports.notifyBit.mpr told, second [] rfl⟩

end Port

end Transport

end VirtioMmio
