import VirtioMmio.Proofs.Device.Survey
import VirtioMmio.Proofs.Queue.Placement

/-!
The check of a set-up and the checks that are made again while the device is built. They look at
different sizes: the first at the limit that is asked for, the others at what is left of it under
the limit of the type. Main result: `build_agrees_with_check`, by which the later checks never
refuse what passed the first, and the limit that is left is good for every layout.
-/

namespace VirtioMmio

open Memory (Separate)
open Transport (Register RegisterFile windowSize)
open Vring (Layout)
open Vring.Layout (judge judge_cons_of_applies judge_cons_of_not judge_eq_error_iff)

/-! ### Sizes of queues -/

namespace Vring.Layout

/-- Queues of a size are taken: whether a layout is accepted depends on its addresses alone. -/
def TakesSize (size max : UInt16) : Prop :=
  ∀ desc avail used, (∃ l, Layout.new size max desc avail used = .ok l) ↔
    16 ∣ desc.toNat ∧ 16 ∣ avail.toNat ∧ 4 ∣ used.toNat ∧
      Separate desc (16 * size.toNat) avail (6 + 2 * size.toNat) ∧
      Separate desc (16 * size.toNat) used (6 + 8 * size.toNat) ∧
      Separate avail (6 + 2 * size.toNat) used (6 + 8 * size.toNat)

theorem takesSize {size max : UInt16} (power : ∃ k, size.toNat = 2 ^ k) (within : size ≤ max) :
    TakesSize size max := by
  intro desc avail used
  have small := UInt16.le_iff_toNat_le.mp within
  simp only [new_eq, judge_eq_ok_iff, exists_eq_left]
  simp only [reasons, List.forall_mem_cons, not_not, List.not_mem_nil, false_implies, implies_true,
    and_true, Nat.not_lt, power, small, true_and]

/-- Rings of at most 32768 entries have room side by side. -/
theorem TakesSize.exists_layout {size max : UInt16} (takes : TakesSize size max)
    (few : size.toNat ≤ 32768) :
    ∃ desc avail used l, Layout.new size max desc avail used = .ok l := by
  have zero : (0 : UInt64).toNat = 0 := rfl
  have first : (0x100000 : UInt64).toNat = 0x100000 := rfl
  have second : (0x200000 : UInt64).toNat = 0x200000 := rfl
  refine ⟨0, 0x100000, 0x200000, (takes _ _ _).mpr ⟨by decide, by decide, by decide, ?_⟩⟩
  simp only [Separate, Memory.InRange, zero, first, second]
  refine ⟨?_, ?_, ?_⟩ <;> intro a <;> omega

end Vring.Layout

theorem Device.isQueueLimit_iff (size : UInt16) :
    isQueueLimit size = true ↔ (∃ k, size.toNat = 2 ^ k) ∧ size.toNat ≤ 32768 := by
  rw [isQueueLimit, Bool.and_eq_true, Vring.isPowerOfTwo_iff, decide_eq_true_eq,
    UInt16.le_iff_toNat_le]
  rfl

namespace Setup

variable {s : Setup} {ram : Memory.Ram} {d : Device}

/-! ### The check -/

/-- What speaks against a set-up, in the order in which it counts. -/
def reasons (s : Setup) : List (Prop × ConfigError) :=
  [(¬ ((∃ k, s.maxQueueSize.toNat = 2 ^ k) ∧ s.maxQueueSize.toNat ≤ 32768),
      .queueSize s.maxQueueSize),
    (¬ 512 ∣ s.slot.base.toNat, .misaligned s.slot.base)] ++
    match s.kind with
    | .socket socket => [(socket.cid.toNat ≤ 2, .reservedCid socket.cid)]
    | _ => []

theorem aligned_iff (base : UInt64) : base % windowSize = 0 ↔ 512 ∣ base.toNat := by
  rw [← UInt64.toNat_inj, UInt64.toNat_mod, Nat.dvd_iff_mod_eq_zero]
  rfl

/-- The first of the reasons that applies decides. -/
theorem check_eq (s : Setup) : s.check = judge () s.reasons := by
  rw [check, reasons, List.cons_append, List.cons_append, List.nil_append]
  cases limit : Device.isQueueLimit s.maxQueueSize with
  | false =>
    rw [judge_cons_of_applies (by rw [← Device.isQueueLimit_iff, limit]; decide)]
    rfl
  | true =>
    rw [judge_cons_of_not (not_not_intro ((Device.isQueueLimit_iff _).mp limit))]
    by_cases aligned : s.slot.base % windowSize = 0
    · rw [judge_cons_of_not (not_not_intro ((aligned_iff _).mp aligned))]
      simp only [aligned, Bool.not_true, Bool.false_eq_true, if_false, bne_self_eq_false]
      cases s.kind with
      | socket socket =>
        have same : socket.cid ≤ Kind.Socket.hostCid ↔ socket.cid.toNat ≤ 2 :=
          UInt64.le_iff_toNat_le
        simp only [reservedCid?, judge, same]
        by_cases reserved : socket.cid.toNat ≤ 2
        · rw [if_pos reserved, if_pos reserved]
        · rw [if_neg reserved, if_neg reserved]
      | _ => rfl
    · rw [judge_cons_of_applies (mt (aligned_iff _).mpr aligned)]
      simp [aligned]

/-- Nothing but the check stands in the way of a device. -/
theorem build_eq_error_iff {e : ConfigError} : s.build ram = .error e ↔ s.check = .error e := by
  cases checked : s.check with
  | error e' =>
    rw [build, checked]
    simp
  | ok =>
    obtain ⟨d, built⟩ := build_of_check checked ram
    simp [built]

theorem check_of_build (built : s.build ram = .ok d) : s.check = .ok () := by
  cases checked : s.check with
  | error e =>
    rw [build_eq_error_iff.mpr checked] at built
    cases built
  | ok => rfl

/-! ### The limit that is left -/

theorem registers_of_build (built : s.build ram = .ok d) :
    d.registers.maxQueueSize = min s.maxQueueSize 256 ∧
      d.registers.queues.length = s.kind.profile.queues := by
  rw [Device.new_eq_ok (new_of_build built)]
  refine ⟨?_, List.length_replicate⟩
  change min s.maxQueueSize s.kind.profile.maxQueueSize = _
  rw [s.kind.profile_fits.2.1]
  rfl

/-- The limit of a device is a power of two that the ring format allows. -/
theorem isQueueLimit_of_build (built : s.build ram = .ok d) :
    Device.isQueueLimit (min s.maxQueueSize 256) = true := by
  have limit := isQueueLimit_queueLimit (check_eq_ok (check_of_build built)).1
  rwa [Device.queueLimit, s.kind.profile_fits.2.1] at limit

end Setup

namespace Device

/-- The driver writes to the queue selector. -/
theorem step_select {d : Device} (settled : d.Settled) (value : UInt64) :
    d.step (.access (.write value) Register.queueSelect.offset 4) =
      (d.withConfig (d.registers.config.selectQueue value.toUInt32), .access (.ok 0)) := by
  rw [step, access_register settled]
  rfl

/-- The number of a queue is offered the limit; any other number selects nothing, also one that the
selector cannot hold. -/
theorem queueSizeMax_select {d : Device} (settled : d.Settled) (number : UInt32) :
    (d.withConfig (d.registers.config.selectQueue number)).registers.readRegister d.machine
        .queueSizeMax =
      some (if number.toNat < d.registers.queues.length then d.registers.maxQueueSize.toUInt32
        else 0) := by
  have few : d.registers.queues.length ≤ 64 := settled.few
  have there : (d.withConfig (d.registers.config.selectQueue number)).registers.selected?.isSome =
      decide (number.toNat < d.registers.queues.length) := by
    have index (i : Nat) : d.registers.queues[i]?.isSome =
        decide (i < d.registers.queues.length) := by
      by_cases inside : i < d.registers.queues.length
      · simp [inside]
      · simp [inside]
    simp only [RegisterFile.selected?, withConfig, Config.State.selectQueue, index]
    split
    next fits => rw [UInt32.toNat_toUInt16, Nat.mod_eq_of_lt fits]
    next large =>
      have last : (0xffff : UInt16).toNat = 0xffff := rfl
      exact decide_eq_decide.mpr (by omega)
  simp only [RegisterFile.readRegister, there, decide_eq_true_eq]
  rfl

end Device

/-- A set-up is refused by the check or by nothing, and the check refuses it for the first reason
that applies. What the check lets pass, the checks inside the device let pass as well. The device
then offers the smaller of the limit asked for and the limit of its type, at any time and under the
number of each of its queues, and nothing under any other number; and queues of that size are
taken. -/
theorem build_agrees_with_check (s : Setup) (ram : Memory.Ram) :
    (∀ e, s.build ram = .error e ↔ s.check = .error e) ∧
      (∀ e, s.check = .error e ↔ ∃ before p after, s.reasons = before ++ (p, e) :: after ∧ p ∧
        ∀ r ∈ before, ¬ r.1) ∧
      (s.check = .ok () → ∃ d, Device.new s.kind.profile s.options ram = .ok d) ∧
      ∀ d, s.build ram = .ok d →
        (∀ actions value, ((d.run actions).1.run
            [.access (.write value) Register.queueSelect.offset 4,
              .access .read Register.queueSizeMax.offset 4]).2 =
          [.access (.ok 0), .access (.ok
            (if value.toUInt32.toNat < s.kind.profile.queues then
              (min s.maxQueueSize 256).toUInt64 else 0))]) ∧
        Layout.TakesSize (min s.maxQueueSize 256) d.registers.maxQueueSize ∧
        ∃ desc avail used l,
          Layout.new (min s.maxQueueSize 256) d.registers.maxQueueSize desc avail used = .ok l := by
  refine ⟨fun e => Setup.build_eq_error_iff, fun e => ?_, fun valid => ?_, fun d built => ?_⟩
  · rw [Setup.check_eq, judge_eq_error_iff]
  · obtain ⟨d, built⟩ := Setup.build_of_check valid ram
    exact ⟨d, Setup.new_of_build built⟩
  · obtain ⟨limit, count⟩ := Setup.registers_of_build built
    obtain ⟨power, few⟩ := (Device.isQueueLimit_iff _).mp (Setup.isQueueLimit_of_build built)
    have takes := Layout.takesSize power (UInt16.le_refl (min s.maxQueueSize 256))
    rw [limit]
    refine ⟨fun actions value => ?_, takes, takes.exists_layout few⟩
    -- Neither the limit nor the number of queues changes while the device is in use.
    have settled := Device.settled_new (Setup.new_of_build built)
    have same := (d.steady_run settled.quiet actions).fixed
    have limit' : (d.run actions).1.registers.maxQueueSize = min s.maxQueueSize 256 :=
      (congrArg (fun fixed => fixed.2.1.2.1) same).trans limit
    have count' : (d.run actions).1.registers.queues.length = s.kind.profile.queues :=
      (congrArg (fun fixed => fixed.2.1.2.2.1) same).trans count
    have now := Device.settled_run settled actions
    have selected := Device.queueSizeMax_select now value.toUInt32
    rw [limit', count'] at selected
    have moved : ((d.run actions).1.withConfig
        ((d.run actions).1.registers.config.selectQueue value.toUInt32)).Settled :=
      ⟨now.quiet, now.few⟩
    simp only [Device.run, Device.step_select now, Device.step_read_register moved selected]
    split <;> rfl

/-! A console that is granted more than its type offers, and a socket with three faults. -/

def generousConsole : Setup where
  slot := ⟨0xa000200, 0x200, 49⟩
  kind := .console ⟨none⟩
  maxQueueSize := 1024

def faultySocket : Setup where
  slot := ⟨0xa000204, 0x200, 49⟩
  kind := .socket ⟨2⟩
  maxQueueSize := 24

theorem generousConsole_offers :
    (∃ d, generousConsole.build .empty = .ok d ∧
      (d.run [.access (.write 1) 0x30 4, .access .read 0x34 4]).2 =
        [.access (.ok 0), .access (.ok 256)] ∧
      (d.run [.access (.write 0x10001) 0x30 4, .access .read 0x34 4]).2 =
        [.access (.ok 0), .access (.ok 0)]) ∧
      faultySocket.build .empty = .error (.queueSize 24) := by
  obtain ⟨_, _, _, offers⟩ := build_agrees_with_check generousConsole .empty
  obtain ⟨errors, first, _⟩ := build_agrees_with_check faultySocket .empty
  refine ⟨⟨_, rfl, (offers _ rfl).1 [] 1, (offers _ rfl).1 [] 0x10001⟩, ?_⟩
  have size : ¬ ((∃ k, faultySocket.maxQueueSize.toNat = 2 ^ k) ∧
      faultySocket.maxQueueSize.toNat ≤ 32768) := by
    rw [← Device.isQueueLimit_iff]
    decide
  exact (errors _).mpr ((first _).mpr ⟨[], _, _, rfl, size, nofun⟩)

end VirtioMmio
