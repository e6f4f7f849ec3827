import VirtioMmio.Proofs.Config.Handshake
import VirtioMmio.Proofs.Device.Generation

/-!
The fields that the driver sets through registers. Some registers are windows: which half of the
features or which queue a write goes to was selected before, by a write to another register. Main
result: `writes_hit_their_field`. A write sets the one field that it is meant for or nothing at all,
so that in any state the addresses of a queue that is down are what was written last.
-/

namespace VirtioMmio

open Config (State)
open Queue (Half Registers RingAddress)
open Transport (Register RegisterFile configSpace)

/-! ### Addresses in halves -/

namespace Queue.Registers

def withAddr (r : Registers) (ring : RingAddress) (word : UInt64) : Registers :=
  match ring with
  | .desc => { r with desc := word }
  | .driver => { r with driver := word }
  | .device => { r with device := word }

theorem addr_withAddr (r : Registers) (ring other : RingAddress) (word : UInt64) :
    (r.withAddr ring word).addr other = if ring = other then word else r.addr other := by
  cases ring <;> cases other <;> rfl

theorem writeAddr_eq {r : Registers} (down : r.isUp = false) (ring : RingAddress) (half : Half)
    (v : UInt32) : r.writeAddr ring half v = r.withAddr ring (withHalf (r.addr ring) half v) := by
  simp only [writeAddr, down, Bool.false_eq_true, if_false]
  cases ring <;> rfl

/-- The value that the size register stores; one beyond 16 bits becomes zero. -/
def storedSize (v : UInt32) : UInt16 :=
  if v.toNat < 0x10000 then v.toUInt16 else 0

theorem addr_writeSize (r : Registers) (v : UInt32) (ring : RingAddress) :
    (r.writeSize v).addr ring = r.addr ring := by
  simp only [writeSize]
  split
  · rfl
  · cases ring <;> rfl

end Queue.Registers

/-- The register only stores what is written to it: the device does not act on the write. -/
def Transport.Register.isPlain : Register → Bool
  | .status | .queueReady | .queueNotify | .interruptAcknowledge => false
  | _ => true

/-- The value that the queue selector stores; all beyond 16 bits become the last number. -/
def Config.State.storedSelector (v : UInt32) : UInt16 :=
  if v.toNat < 0x10000 then v.toUInt16 else 0xffff

/-- Whatever is written other than zero, the selected queue stays selected. -/
theorem Config.State.queue_writeStatus (s : State) {v : UInt32} (nonzero : v ≠ 0) :
    (s.writeStatus v).2.queue = s.queue := by
  rcases s.writeStatus_nonzero nonzero with same | ⟨status, _, same⟩ <;> rw [same]
  rfl

/-- The window decides which half of the features is written. -/
theorem Config.State.writeFeatures_window {s : State} (opened : s.featuresOpen = true) {half : Half}
    (window : s.acceptedWindow = half.window) (v : UInt32) :
    (s.writeFeatures v).2 = { s with accepted := Registers.withHalf s.accepted half v } := by
  cases half with
  | low =>
    have first : s.acceptedWindow = 0 := window
    simp only [writeFeatures, opened, Bool.not_true, Bool.false_eq_true, if_false, if_pos first]
    rfl
  | high =>
    have second : s.acceptedWindow = 1 := window
    have other : s.acceptedWindow ≠ 0 := by
      rw [second]
      decide
    simp only [writeFeatures, opened, Bool.not_true, Bool.false_eq_true, if_false, if_neg other,
      if_pos second]
    rfl

namespace Device

/-! ### Fields -/

/-- A field that the driver sets through a register. Features and addresses have 64 bits and are set
by halves, so each half is a field of its own. -/
inductive Field where
  | offeredWindow
  | acceptedWindow
  | queueSelector
  | features (half : Half)
  | queueSize (index : Nat)
  | queueAddress (index : Nat) (ring : RingAddress) (half : Half)
  deriving DecidableEq

def modifyQueue (d : Device) (index : Nat) (f : Registers → Registers) : Device :=
  { d with registers.queues := d.registers.queues.modify index f }

/-- The device with one field set. -/
def put (d : Device) (v : UInt32) : Field → Device
  | .offeredWindow => { d with registers.config.offeredWindow := v }
  | .acceptedWindow => { d with registers.config.acceptedWindow := v }
  | .queueSelector => { d with registers.config.queue := State.storedSelector v }
  | .features half =>
    { d with registers.config.accepted := Registers.withHalf d.registers.config.accepted half v }
  | .queueSize index => d.modifyQueue index fun r => { r with size := Registers.storedSize v }
  | .queueAddress index ring half =>
    d.modifyQueue index fun r => r.withAddr ring (Registers.withHalf (r.addr ring) half v)

/-- What a field holds; `none` if it belongs to a queue that the device does not have. -/
def get? (d : Device) : Field → Option UInt32
  | .offeredWindow => some d.registers.config.offeredWindow
  | .acceptedWindow => some d.registers.config.acceptedWindow
  | .queueSelector => some d.registers.config.queue.toUInt32
  | .features half => some (half.of d.registers.config.accepted)
  | .queueSize index => d.registers.queues[index]?.map (·.size.toUInt32)
  | .queueAddress index ring half => d.registers.queues[index]?.map fun r => half.of (r.addr ring)

theorem modifyQueue_congr {d : Device} {index : Nat} {r : Registers} {f g : Registers → Registers}
    (found : d.registers.queues[index]? = some r) (same : f r = g r) :
    d.modifyQueue index f = d.modifyQueue index g := by
  simp only [modifyQueue, List.modify_eq_set_getElem?, found, same, Option.map_eq_map,
    Option.map_some]

theorem modifyQueue_none {d : Device} {index : Nat} {f : Registers → Registers}
    (none : d.registers.queues[index]? = none) : d.modifyQueue index f = d := by
  rw [modifyQueue, List.modify_eq_self (List.getElem?_eq_none_iff.mp none)]

theorem modifyQueue_self {d : Device} {index : Nat} {r : Registers} {f : Registers → Registers}
    (found : d.registers.queues[index]? = some r) (same : f r = r) : d.modifyQueue index f = d := by
  rw [modifyQueue_congr (g := id) found same, modifyQueue, List.modify_id]

/-- A part of the queues that a change does not reach stays. -/
theorem map_modifyQueue {α : Type} (d : Device) {index i : Nat} {f : Registers → Registers}
    {part : Registers → α} (blind : index = i → ∀ r, part (f r) = part r) :
    (d.modifyQueue index f).registers.queues[i]?.map part = d.registers.queues[i]?.map part := by
  simp only [modifyQueue, List.getElem?_modify]
  cases d.registers.queues[i]? with
  | none => rfl
  | some r =>
    by_cases here : index = i
    · simp [here, blind here]
    · simp [here]

/-- Every other field is as before. -/
theorem get?_put_of_ne (d : Device) (v : UInt32) {f g : Field} (apart : g ≠ f) :
    (d.put v f).get? g = d.get? g := by
  cases f with
  | features half =>
    cases g with
    | features other =>
      have different : ¬ half = other := fun same => apart (by rw [same])
      simp only [put, get?, Half.of_withHalf, if_neg different]
    | _ => rfl
  | queueSize index =>
    cases g with
    | queueSize i =>
      exact map_modifyQueue d fun here => absurd (by rw [here]) apart
    | queueAddress i ring half =>
      refine map_modifyQueue d fun _ r => ?_
      cases ring <;> rfl
    | _ => rfl
  | queueAddress index ring half =>
    cases g with
    | queueSize i =>
      refine map_modifyQueue d fun _ r => ?_
      cases ring <;> rfl
    -- Two halves of one address are different fields, as are the addresses of two rings.
    | queueAddress i ring' half' =>
      refine map_modifyQueue d fun here r => ?_
      rw [Registers.addr_withAddr]
      by_cases same : ring = ring'
      · have different : ¬ half = half' := fun same' => apart (by rw [here, same, same'])
        rw [if_pos same, Half.of_withHalf, if_neg different, same]
      · rw [if_neg same]
    | _ => rfl
  | _ => cases g <;> first | rfl | exact absurd rfl apart

/-! ### What a write is meant for -/

/-- The field that a write to a register is meant for, if the driver selected queue `selected` last.
Selections are numbers of 32 bits; a number beyond the queues of the device means none. -/
inductive Targets (d : Device) (selected : UInt32) : Register → Field → Prop
  | offeredWindow : Targets d selected .offeredFeaturesWindow .offeredWindow
  | acceptedWindow : Targets d selected .driverFeaturesWindow .acceptedWindow
  | queueSelector : Targets d selected .queueSelect .queueSelector
  | features {half : Half} (acknowledged : d.registers.config.status.acknowledge = true)
    (driver : d.registers.config.status.driver = true)
    (early : d.registers.config.status.featuresOk = false)
    (live : d.registers.config.status.failed = false)
    (window : d.registers.config.acceptedWindow = half.window) :
    Targets d selected .driverFeatures (.features half)
  | queueSize {r : Registers} (found : d.registers.queues[selected.toNat]? = some r)
    (down : r.isUp = false) : Targets d selected .queueSize (.queueSize selected.toNat)
  | queueAddress {r : Registers} {ring : RingAddress} {half : Half}
    (found : d.registers.queues[selected.toNat]? = some r) (down : r.isUp = false) :
    Targets d selected (.queueAddress ring half) (.queueAddress selected.toNat ring half)

/-! ### What the driver wrote last -/

/-- What the driver has told the queue registers since the last reset: the queue that it selected
last, and for each queue the halves that it wrote last while the queue was selected. -/
structure Programmed where
  selected : UInt32 := 0
  half : Nat → RingAddress → Half → UInt32 := fun _ _ _ => 0

/-- One action more. -/
def Programmed.after (p : Programmed) (action : Action) : Programmed :=
  if action.isReset then {}
  else
    { selected := (action.value? .queueSelect).getD p.selected
      half := fun index ring half =>
        if p.selected.toNat = index then
          (action.value? (.queueAddress ring half)).getD (p.half index ring half)
        else p.half index ring half }

def programmedBy (actions : List Action) : Programmed :=
  actions.foldl Programmed.after {}

/-- What the driver told the queue registers is what they hold, as far as a queue is down. -/
structure Remembers (d : Device) (p : Programmed) : Prop where
  selector : d.registers.config.queue = State.storedSelector p.selected
  halves : ∀ (i : Nat) (r : Registers), d.registers.queues[i]? = some r → r.isUp = false →
    ∀ ring half, half.of (r.addr ring) = p.half i ring half

namespace Programmed

theorem after_quiet {p : Programmed} {action : Action} (quiet : ∀ r, action.value? r = none) :
    p.after action = p := by
  simp [after, Action.isReset, quiet]

theorem after_write (p : Programmed) {value : UInt64} {r : Register}
    (noReset : (Action.access (.write value) r.offset 4).isReset = false) :
    p.after (.access (.write value) r.offset 4) =
      { selected := if r = .queueSelect then value.toUInt32 else p.selected
        half := fun index ring half =>
          if r = .queueAddress ring half ∧ p.selected.toNat = index then value.toUInt32
          else p.half index ring half } := by
  simp only [after, noReset, Bool.false_eq_true, if_false, Action.value?_write]
  congr 1
  · split <;> rfl
  · funext index ring half
    by_cases named : r = .queueAddress ring half <;> by_cases here : p.selected.toNat = index <;>
      simp [named, here]

end Programmed

namespace Remembers

variable {d : Device} {p : Programmed}

/-- The selector is cut to 16 bits, and still it names the queue that was selected, or none. -/
theorem selector_eq_or (remembers : d.Remembers p) (few : d.registers.queues.length ≤ maxQueues) :
    d.registers.config.queue.toNat = p.selected.toNat ∨
      d.registers.queues.length ≤ d.registers.config.queue.toNat ∧
        d.registers.queues.length ≤ p.selected.toNat := by
  have few' : d.registers.queues.length ≤ 64 := few
  rw [remembers.selector, State.storedSelector]
  split
  next small =>
    left
    rw [UInt32.toNat_toUInt16, Nat.mod_eq_of_lt small]
  next large =>
    right
    have last : (0xffff : UInt16).toNat = 0xffff := rfl
    omega

theorem selected? (remembers : d.Remembers p) (few : d.registers.queues.length ≤ maxQueues) :
    d.registers.selected? = d.registers.queues[p.selected.toNat]? := by
  rw [RegisterFile.selected?]
  rcases remembers.selector_eq_or few with same | ⟨beyond, beyond'⟩
  · rw [same]
  · rw [List.getElem?_eq_none beyond, List.getElem?_eq_none beyond']

theorem modifySelected (remembers : d.Remembers p) (few : d.registers.queues.length ≤ maxQueues)
    (f : Registers → Registers) :
    ({ d with registers := d.registers.modifySelected f } : Device) =
      d.modifyQueue p.selected.toNat f := by
  rw [RegisterFile.modifySelected, modifyQueue]
  rcases remembers.selector_eq_or few with same | ⟨beyond, beyond'⟩
  · rw [same]
  · rw [List.modify_eq_self beyond, List.modify_eq_self beyond']

/-! #### One action -/

/-- What leaves the addresses of queues that stay down, and selects no queue, is no news. -/
theorem of_kept (remembers : d.Remembers p) {d' : Device}
    (selector : d'.registers.config.queue = d.registers.config.queue)
    (queues : ∀ (i : Nat) (r' : Registers), d'.registers.queues[i]? = some r' →
      r'.isUp = false →
        ∃ r, d.registers.queues[i]? = some r ∧ r.isUp = false ∧ r'.addr = r.addr) :
    d'.Remembers p where
  selector := selector.trans remembers.selector
  halves i r' found down ring half := by
    obtain ⟨r, before, down', same⟩ := queues i r' found down
    rw [same]
    exact remembers.halves i r before down' ring half

theorem of_same (remembers : d.Remembers p) {d' : Device}
    (selector : d'.registers.config.queue = d.registers.config.queue)
    (queues : d'.registers.queues = d.registers.queues) : d'.Remembers p :=
  remembers.of_kept selector fun _ r found down => ⟨r, queues ▸ found, down, rfl⟩

/-- A queue that came up is not concerned any more. -/
theorem madeReady (remembers : d.Remembers p) {d' : Device} (made : MadeReady d d') :
    d'.Remembers p := by
  cases made with
  | same => exact remembers
  | @up r layout found down early accepted backed =>
    refine remembers.of_kept rfl fun i r' found' down' => ?_
    change (d.registers.queues.set d.registers.config.queue.toNat _)[i]? = some r' at found'
    by_cases here : d.registers.config.queue.toNat = i
    · subst here
      rw [List.getElem?_set_self (List.getElem?_eq_some_iff.mp found).1] at found'
      cases found'
      cases down'
    · rw [List.getElem?_set_ne here] at found'
      exact ⟨r', found', down', rfl⟩

theorem writeSize (remembers : d.Remembers p) (v : UInt32) :
    ({ d with registers := d.registers.modifySelected (·.writeSize v) } : Device).Remembers p := by
  refine remembers.of_kept rfl fun i r' found down => ?_
  simp only [RegisterFile.modifySelected, List.getElem?_modify] at found
  obtain ⟨r, before, rfl⟩ := Option.map_eq_some_iff.mp found
  refine ⟨r, before, ?_, ?_⟩
  · split at down
    · rwa [Registers.isUp, live_writeSize] at down
    · exact down
  · split
    · exact funext (r.addr_writeSize v)
    · rfl

/-- Half an address is written to the selected queue, and remembered. -/
theorem writeAddr (remembers : d.Remembers p) (few : d.registers.queues.length ≤ maxQueues)
    (ring : RingAddress) (half : Half) (v : UInt32) :
    Remembers { d with registers := d.registers.modifySelected (·.writeAddr ring half v) }
      { selected := p.selected
        half := fun index ring' half' =>
          if Register.queueAddress ring half = .queueAddress ring' half' ∧
            p.selected.toNat = index then v
          else p.half index ring' half' } where
  selector := remembers.selector
  halves i r' found down ring' half' := by
    rw [remembers.modifySelected few, modifyQueue, List.getElem?_modify] at found
    obtain ⟨r, before, rfl⟩ := Option.map_eq_some_iff.mp found
    by_cases here : p.selected.toNat = i
    · simp only [here, if_true] at down ⊢
      have down' : r.isUp = false := by rwa [Registers.isUp, live_writeAddr] at down
      have written := (Registers.writeAddr_down down' ring half v).2.2.2 ring' half'
      rw [written, remembers.halves i r before down' ring' half']
      simp
    · simp only [here, if_false, and_false] at down ⊢
      exact remembers.halves i r before down ring' half'

end Remembers

theorem remembers_write {d : Device} {p : Programmed} (remembers : d.Remembers p)
    (few : d.registers.queues.length ≤ maxQueues)
    (honest : ∀ r ∈ d.registers.queues, r.ready = r.isUp) {value : UInt64} {r : Register}
    (noReset : (Action.access (.write value) r.offset 4).isReset = false) :
    (d.carryOut value.toUInt32 r).Remembers (p.after (.access (.write value) r.offset 4)) := by
  rw [Programmed.after_write p noReset]
  have nonzero := Action.ne_zero_of_write noReset
  cases r with
  | queueSelect => exact ⟨rfl, remembers.halves⟩
  | queueAddress ring half => exact remembers.writeAddr few ring half _
  | queueSize => exact remembers.writeSize _
  | queueReady => exact remembers.madeReady (madeReady honest _)
  | status =>
    refine remembers.of_same ?_ (queues_writeStatus d (nonzero rfl)).1
    have moved := d.registers.config.queue_writeStatus (nonzero rfl)
    rw [← moved]
    exact congrArg State.queue (config_writeStatus d _)
  | queueNotify =>
    have same := registers_ring d value.toUInt32
    exact remembers.of_same (congrArg (·.config.queue) same) (congrArg (·.queues) same)
  | interruptAcknowledge =>
    have same := registers_acknowledge d value.toUInt32
    exact remembers.of_same (congrArg (·.config.queue) same) (congrArg (·.queues) same)
  | driverFeatures =>
    obtain ⟨accepted, same⟩ := d.registers.config.writeFeatures_eq value.toUInt32
    have selector := congrArg State.queue same
    exact remembers.of_same selector rfl
  | _ => exact remembers.of_same rfl rfl

/-- A reset blanks every queue and selects the first one, and no write before it counts. -/
theorem remembers_reset {d : Device} {v : UInt32} (zero : v = 0) :
    (d.writeStatus v).Remembers {} where
  selector := by
    rw [config_writeStatus, zero, State.writeStatus_zero]
    rfl
  halves i r found down ring half := by
    rw [(writeStatus_blank zero).1, List.getElem?_map] at found
    obtain ⟨_, _, rfl⟩ := Option.map_eq_some_iff.mp found
    cases ring <;> cases half <;> rfl

theorem Happens.remembers {d d' : Device} {action : Action} (happens : d.Happens action d')
    (established : d.Established) {p : Programmed} (remembers : d.Remembers p) :
    d'.Remembers (p.after action) := by
  cases happens with
  | register value r =>
    cases reset : (Action.access (.write value) r.offset 4).isReset with
    | true =>
      have forgotten : p.after (.access (.write value) r.offset 4) = {} := if_pos reset
      obtain ⟨rfl, zero⟩ := (Action.isReset_write value r).mp reset
      rw [forgotten]
      exact remembers_reset zero
    | false => exact remembers_write remembers established.few established.matched.honest reset
  | shutdown =>
    rw [Programmed.after_quiet fun _ => rfl, shutdown_eq]
    exact remembers.of_same rfl rfl
  | aside elsewhere going aside =>
    rw [Programmed.after_quiet elsewhere]
    obtain ⟨block, registers⟩ := aside.registers
    exact remembers.of_same (by rw [registers]) aside.queues.1

/-! ### Runs -/

theorem remembers_new {profile : Profile} {options : Options} {ram : Memory.Ram} {d : Device}
    (built : Device.new profile options ram = .ok d) : d.Remembers {} := by
  rw [new_eq_ok built]
  refine ⟨rfl, fun i r found down ring half => ?_⟩
  cases List.eq_of_mem_replicate (List.mem_of_getElem? found)
  cases ring <;> cases half <;> rfl

theorem remembers_run {d : Device} (established : d.Established) {p : Programmed}
    (remembers : d.Remembers p) (actions : List Action) :
    (d.run actions).1.Remembers (actions.foldl Programmed.after p) := by
  induction actions generalizing d p with
  | nil => exact remembers
  | cons action later ih =>
    have happens := step_happens established.toSettled action
    exact ih (established_step established action) (happens.remembers established remembers)

/-! ### Accepted writes -/

/-- A write below the configuration space that is accepted goes to a register. -/
theorem register_of_taken {d : Device} {value offset answer : UInt64} {size : UInt8}
    (front : offset < configSpace) (taken : (d.access (.write value) offset size).2 = .ok answer) :
    ∃ r : Register, offset = r.offset ∧ size = 4 := by
  obtain ⟨registers, machine, written, _⟩ := access_taken taken
  have low : ¬ configSpace ≤ offset := UInt64.not_le.mpr front
  unfold RegisterFile.write at written
  split at written
  · cases written
  next fits =>
    rw [if_neg low] at written
    split at written
    · cases written
    next r found =>
      exact ⟨r, (Transport.Register.offset_of_ofOffset? found).symm,
        RegisterFile.checkWidth_low low fits⟩

theorem carryOut_features (d : Device) (v : UInt32) (selected : UInt32) :
    (∀ f, d.Targets selected .driverFeatures f → d.carryOut v .driverFeatures = d.put v f) ∧
      ((∀ f, ¬ d.Targets selected .driverFeatures f) → d.carryOut v .driverFeatures = d) := by
  constructor
  · rintro f ⟨⟩
    next half acknowledged driver early live window =>
      have opened : d.registers.config.featuresOpen = true := by
        simp [State.featuresOpen, acknowledged, driver, early, live]
      exact congrArg d.withConfig (State.writeFeatures_window opened window v)
  · intro untargeted
    have same : (d.registers.config.writeFeatures v).2 = d.registers.config := by
      unfold State.writeFeatures
      split
      · rfl
      next opened =>
        simp only [State.featuresOpen, Bool.not_eq_true', Bool.not_eq_false,
          Bool.and_eq_true] at opened
        obtain ⟨⟨⟨acknowledged, driver⟩, early⟩, live⟩ := opened
        split
        next low =>
          exact absurd (.features acknowledged driver early live low) (untargeted (.features .low))
        · split
          next high =>
            exact absurd (.features acknowledged driver early live high)
              (untargeted (.features .high))
          · rfl
    exact congrArg d.withConfig same

/-- A write that goes through to the selected queue as long as the queue is down. -/
theorem modifySelected_targets {d : Device} {p : Programmed} (remembers : d.Remembers p)
    (few : d.registers.queues.length ≤ maxQueues) {f g : Registers → Registers}
    (down : ∀ r, r.isUp = false → f r = g r) (up : ∀ r, r.isUp = true → f r = r) :
    (∀ r, d.registers.queues[p.selected.toNat]? = some r → r.isUp = false →
        ({ d with registers := d.registers.modifySelected f } : Device) =
          d.modifyQueue p.selected.toNat g) ∧
      ((∀ r, d.registers.queues[p.selected.toNat]? = some r → r.isUp = true) →
        ({ d with registers := d.registers.modifySelected f } : Device) = d) := by
  rw [remembers.modifySelected few]
  refine ⟨fun r found isDown => modifyQueue_congr found (down r isDown), fun frozen => ?_⟩
  cases found : d.registers.queues[p.selected.toNat]? with
  | none => exact modifyQueue_none found
  | some r => exact modifyQueue_self found (up r (frozen r found))

/-- A write to a register that only stores sets the field that it is meant for, and without such a
field it does nothing. -/
theorem carryOut_targets {d : Device} {p : Programmed} (remembers : d.Remembers p)
    (few : d.registers.queues.length ≤ maxQueues) (v : UInt32) {r : Register}
    (plain : r.isPlain = true) :
    (∀ f, d.Targets p.selected r f → d.carryOut v r = d.put v f) ∧
      ((∀ f, ¬ d.Targets p.selected r f) → d.carryOut v r = d) := by
  cases r with
  | offeredFeaturesWindow =>
    exact ⟨by rintro f ⟨⟩; rfl, fun untargeted => absurd .offeredWindow (untargeted _)⟩
  | driverFeaturesWindow =>
    exact ⟨by rintro f ⟨⟩; rfl, fun untargeted => absurd .acceptedWindow (untargeted _)⟩
  | queueSelect =>
    exact ⟨by rintro f ⟨⟩; rfl, fun untargeted => absurd .queueSelector (untargeted _)⟩
  | driverFeatures => exact d.carryOut_features v p.selected
  -- The registers of a queue are a field while it is down, and none at all while it is up.
  | queueSize =>
    obtain ⟨stored, kept⟩ := modifySelected_targets remembers few (f := (·.writeSize v))
      (g := fun r => { r with size := Registers.storedSize v })
      (fun r down => by simp only [Registers.writeSize, down, Bool.false_eq_true, if_false]; rfl)
      (fun r up => writeSize_up up v)
    refine ⟨?_, fun untargeted => kept fun r found => ?_⟩
    · rintro f ⟨⟩
      next r found down => exact stored r found down
    · by_contra down
      exact untargeted _ (.queueSize found (Bool.eq_false_iff.mpr down))
  | queueAddress ring half =>
    obtain ⟨stored, kept⟩ := modifySelected_targets remembers few
      (f := (·.writeAddr ring half v))
      (g := fun r => r.withAddr ring (Registers.withHalf (r.addr ring) half v))
      (fun r down => Registers.writeAddr_eq down ring half v)
      (fun r up => writeAddr_up up ring half v)
    refine ⟨?_, fun untargeted => kept fun r found => ?_⟩
    · rintro f ⟨⟩
      next r found down => exact stored r found down
    · by_contra down
      exact untargeted _ (.queueAddress found (Bool.eq_false_iff.mpr down))
  | status | queueReady | queueNotify | interruptAcknowledge => cases plain
  | _ => exact ⟨by rintro f ⟨⟩, fun _ => rfl⟩

/-- Writes to registers set the fields they are meant for. In every state of a device a write that
is accepted below the configuration space goes to a register; if the device does not act on it, the
write sets the field that it is meant for and leaves every other one, or does nothing if there is no
such field. So in every state the address of a queue that is down is made up of the halves that were
written last while the queue was selected, since the last reset. -/
theorem writes_hit_their_field {profile : Profile} {options : Options} {ram : Memory.Ram}
    {d₀ d : Device} (built : Device.new profile options ram = .ok d₀) (actions : List Action)
    (reached : (d₀.run actions).1 = d) :
    (∀ value offset size answer, offset < configSpace →
        (d.access (.write value) offset size).2 = .ok answer →
        ∃ r : Register, offset = r.offset ∧ size = 4 ∧ (r.isPlain = true →
          (∀ f, d.Targets (programmedBy actions).selected r f →
            (d.access (.write value) offset size).1 = d.put value.toUInt32 f ∧
              ∀ g, g ≠ f → (d.access (.write value) offset size).1.get? g = d.get? g) ∧
          ((∀ f, ¬ d.Targets (programmedBy actions).selected r f) →
            (d.access (.write value) offset size).1 = d))) ∧
      ∀ (i : Nat) (r : Registers), d.registers.queues[i]? = some r → r.isUp = false →
        ∀ ring, (r.addr ring).toNat =
          ((programmedBy actions).half i ring .low).toNat +
            2 ^ 32 * ((programmedBy actions).half i ring .high).toNat := by
  have established₀ := established_new built
  have established : d.Established := reached ▸ established_run established₀ actions
  have remembers : d.Remembers (programmedBy actions) :=
    reached ▸ remembers_run established₀ (remembers_new built) actions
  refine ⟨?_, ?_⟩
  · intro value offset size answer front taken
    obtain ⟨r, rfl, rfl⟩ := register_of_taken front taken
    refine ⟨r, rfl, rfl, fun plain => ?_⟩
    have whole := access_register established.toSettled value r
    -- A write to a register that is only read is refused, and this one was taken.
    have writable : r.isReadOnly = false := by
      by_contra readOnly
      rw [whole, if_pos (by simpa using readOnly)] at taken
      cases taken
    have done : (d.access (.write value) r.offset 4).1 = d.carryOut value.toUInt32 r := by
      rw [whole, writable]
      rfl
    obtain ⟨stored, kept⟩ := carryOut_targets remembers established.few value.toUInt32 plain
    rw [done]
    refine ⟨fun f target => ?_, kept⟩
    rw [stored f target]
    exact ⟨rfl, fun g apart => d.get?_put_of_ne _ apart⟩
  · intro i r found down ring
    rw [Halves.toNat_eq, ← remembers.halves i r found down ring .low,
      ← remembers.halves i r found down ring .high]
    rfl

/-! The driver of the console programs both queues crosswise, upper half first for one of them. In
between it selects a number beyond 16 bits whose low half names the second queue. -/

def crosswise : List Action :=
  driverWrites [(0x30, 1), (0x84, 5), (0x30, 0), (0x80, 0x1000), (0x30, 0x10001), (0x80, 7),
    (0x30, 1), (0x80, 0x2000)]

def consoleCrosswise : Device :=
  (consoleStart.run crosswise).1

theorem consoleCrosswise_fields :
    (consoleCrosswise.access (.write 9) 0x84 4).1 =
        consoleCrosswise.put 9 (.queueAddress 1 .desc .high) ∧
      ∃ r, consoleCrosswise.registers.queues[1]? = some r ∧ r.desc.toNat = 0x500002000 := by
  have built := Setup.new_of_build consoleStart_built
  have found : consoleCrosswise.registers.queues[1]? =
      some { Registers.blank with desc := 0x500002000 } := by
    decide +kernel
  have taken : (consoleCrosswise.access (.write 9) 0x84 4).2 = .ok 0 := by decide +kernel
  have selected : (programmedBy crosswise).selected = 1 := by decide +kernel
  obtain ⟨hits, addresses⟩ := writes_hit_their_field built crosswise rfl (d := consoleCrosswise)
  refine ⟨?_, _, found, (addresses 1 _ found rfl .desc).trans (by decide +kernel)⟩
  obtain ⟨r, offset, _, only⟩ := hits 9 0x84 4 0 (by decide) taken
  cases Transport.Register.offset_inj
    (offset.symm.trans (rfl : _ = (Register.queueAddress .desc .high).offset))
  have target : consoleCrosswise.Targets (programmedBy crosswise).selected
      (.queueAddress .desc .high) (.queueAddress 1 .desc .high) := by
    have target : consoleCrosswise.Targets 1 (.queueAddress .desc .high)
        (.queueAddress 1 .desc .high) :=
      .queueAddress found rfl
    rw [selected]
    exact target
  exact ((only rfl).1 _ target).1

end Device

end VirtioMmio
