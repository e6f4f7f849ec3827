import VirtioMmio.Proofs.Device.Tables
import VirtioMmio.Proofs.Memory.Operations
import VirtioMmio.Proofs.Queue.Backing

/-!
Checks that are made once and relied on ever after. A queue is checked as a whole when it is brought
up, and a buffer when its chain is taken. Main result: `checks_cover_uses`. As long as the map
stands nothing that is done with them later is refused, whatever happens in between.
-/

namespace VirtioMmio

open Dma (Space)
open Dma.Space (SameMap)
open Memory (Rights Window)
open Queue (RefusesNamed Virtqueue)
open Vring (Chain)

namespace Device

/-- Virtqueues never go away, and what they were brought up with stays. -/
theorem broughtUp_run {d : Device} (established : d.Established) (actions : List Action) :
    d.machine.broughtUp <+: (d.run actions).1.machine.broughtUp := by
  induction actions generalizing d with
  | nil => exact List.prefix_rfl
  | cons action later ih =>
    have step := (step_happens established.toSettled action).broughtUp established.matched
    exact step.trans (ih (established_step established action))

/-- A virtqueue that is new was found backed. -/
theorem Happens.backed {d d' : Device} {action : Action} (happens : d.Happens action d')
    (matched : d.Matched) {number : Nat} {q : Virtqueue}
    (absent : d.machine.queues[number]? = none) (there : d'.machine.queues[number]? = some q) :
    q.layout.Backed (d.machine.space q) := by
  -- There is one more virtqueue, so the step is not one that adds none.
  have grows (same : d'.machine.broughtUp = d.machine.broughtUp) : False := by
    have now := Machine.getElem?_broughtUp there
    rw [same, Machine.broughtUp, List.getElem?_map, absent] at now
    cases now
  have grows' (same : d'.machine.queues = d.machine.queues) : False :=
    grows (congrArg (List.map Virtqueue.asBroughtUp) same)
  cases happens with
  | register value r =>
    cases reset : (Action.access (.write value) r.offset 4).isReset with
    | true =>
      obtain ⟨rfl, zero⟩ := (Action.isReset_write value r).mp reset
      exact (grows (writeStatus_blank zero).2).elim
    | false =>
      have reshapes := reshapes_register matched.honest reset
      generalize d.carryOut value.toUInt32 r = d' at there grows grows' reshapes
      cases reshapes with
      | kept queues virtqueues => exact (grows' virtqueues).elim
      | programmed index f frozen same queues virtqueues => exact (grows' virtqueues).elim
      | readied made =>
        cases made with
        | same => exact (grows' rfl).elim
        | up found down early accepted backed =>
          have last := List.getElem?_eq_none_iff.mp absent
          rw [List.getElem?_append_right last] at there
          cases List.mem_singleton.mp (List.mem_of_getElem? there)
          exact backed
  | shutdown => exact (grows d.shutdown_stands.2).elim
  | aside elsewhere going aside => exact (grows aside.queues.2).elim

/-- A range that passed a check can be used piece by piece as long as the map stands: every part of
it is there, where the part of the range is, and no address overflows. A queue that was brought up
needs its rings in parts only, so no request is refused an access to them: what can be refused is
only a buffer that the driver named, when a chain is taken. Once it is taken, its buffers are filled
and filled from without refusal. -/
theorem checks_cover_uses {profile : Profile} {options : Options} {ram : Memory.Ram}
    {d₀ d : Device} (built : Device.new profile options ram = .ok d₀) (sound : ram.WellFormed)
    (actions : List Action) (reached : (d₀.run actions).1 = d) :
    (∀ (past : List Memory.Operation) (s t : Space), s.ram = (Memory.Ram.empty.run past).1 →
        SameMap s t → ∀ addr len access, s.check addr len access = .ok () →
          ∃ a, t.window addr len access = .ok ⟨a, len⟩ ∧
            ∀ k m less, 0 < m → k + m ≤ len → access.includes less = true →
              addr.toNat + k + m < 2 ^ 64 ∧ a + k + m < 2 ^ 64 ∧
              (addr + .ofNat k).toNat = addr.toNat + k ∧
              t.window (addr + .ofNat k) m less = Window.sub ⟨a, len⟩ k m ∧
              Window.sub ⟨a, len⟩ k m = .ok ⟨a + k, m⟩) ∧
      (∀ action number q₀, d.machine.queues[number]? = none →
        (d.step action).1.machine.queues[number]? = some q₀ →
        ∀ later m, ((d.step action).1.run later).1.machine = m →
          SameMap (d.machine.space q₀) (m.space q₀) →
          ∃ q, m.queues[number]? = some q ∧ q.asBroughtUp = q₀.asBroughtUp ∧
            (∀ e, (m.takeChain number).2 = .error (.buffer e) → RefusesNamed q (m.space q) e) ∧
            (∀ head len e, (m.returnChain number head len).2 ≠ .error (.buffer e)) ∧
            (∀ wanted e, (m.askNotifications number wanted).2 ≠ .error (.buffer e)) ∧
            (m.liveQueue number = .ok q →
              (∀ head len, head < q.layout.size → (m.returnChain number head len).2 = .ok ()) ∧
              ∀ wanted, (m.askNotifications number wanted).2 = .ok ()) ∧
            ∃ flags, (m.space q).read16 q.layout.avail = .ok flags ∧
              m.wantsInterrupt number = (flags &&& Virtqueue.noInterruptFlag == 0)) ∧
      ∀ number q chain, d.machine.liveQueue number = .ok q →
        (d.machine.takeChain number).2 = .ok (some chain) →
        ∀ later m, ((d.step (.request number .take)).1.run later).1.machine = m →
          SameMap (d.machine.space q) (m.space q) → ∀ q', m.liveQueue number = .ok q' →
            (∀ buffer, ∃ filled, (m.gather number chain buffer).2.2 = .ok filled) ∧
            ∀ data, ∃ copied, (m.scatter number chain data).2 = .ok copied := by
  have established : d.Established := reached ▸ established_run (established_new built) actions
  have sound' : d.machine.ram.WellFormed := reached ▸ wellFormed_run built sound actions
  -- Whatever is done after an action, guest RAM stays well-formed and a virtqueue is still there.
  have onward {action : Action} {later : List Action} {m : Machine}
      (after : ((d.step action).1.run later).1.machine = m) : m.ram.WellFormed := by
    have whole := wellFormed_run built sound (actions ++ action :: later)
    rw [run_append, reached] at whole
    exact after ▸ whole
  have kept {action : Action} {later : List Action} {m : Machine} {number : Nat} {q : Virtqueue}
      (after : ((d.step action).1.run later).1.machine = m)
      (there : (d.step action).1.machine.queues[number]? = some q) :
      ∃ q', m.queues[number]? = some q' ∧ q'.asBroughtUp = q.asBroughtUp := by
    have grown := broughtUp_run (established_step established action) later
    rw [after] at grown
    exact Machine.virtqueue_of_prefix grown there
  refine ⟨?_, ?_, ?_⟩
  · intro past s t made same addr len access passed
    have soundS : s.ram.WellFormed := by
      rw [made]
      exact Memory.Ram.wellFormed_run Memory.Ram.wellFormed_empty past
    obtain ⟨a, located, opened⟩ := Space.window_of_check passed
    have ends := Space.locate_bounds located
    refine ⟨a, (same.window addr len access).trans opened, ?_⟩
    intro k m less nonempty inside fewer
    have sub : Window.sub ⟨a, len⟩ k m = .ok ⟨a + k, m⟩ := by
      rw [Window.sub, (Window.check_eq_ok_iff _ _ _).mpr inside]
    refine ⟨by omega, by omega, Space.toNat_add_of_locate located (by omega), ?_, sub⟩
    rw [sub, same.window]
    exact Space.window_part soundS located inside nonempty fewer
  · intro action number q₀ absent there later m after same
    obtain ⟨q, found, brought⟩ := kept after there
    have backed := (step_happens established.toSettled action).backed established.matched absent there
    have placed : q₀.layout.Placed :=
      (established_step established action).matched.placed_of_found there
    have layout : q.layout = q₀.layout := (congrArg Virtqueue.layout brought :)
    have space : m.space q = m.space q₀ := (congrArg m.space brought :)
    have still : q.layout.Backed (m.space q) := by
      rw [layout, space]
      exact backed.of_sameMap same
    exact ⟨q, found, brought,
      Machine.granted_requests found (layout ▸ placed) (onward after) still⟩
  · intro number q chain live taken later m after same q' live'
    have found := Machine.liveQueue_eq_ok live
    have grown := broughtUp_run established (.request number .take :: later)
    rw [show (d.run (.request number .take :: later)).1.machine = m from after] at grown
    obtain ⟨q'', found', brought⟩ := Machine.virtqueue_of_prefix grown found
    cases Machine.eq_of_liveQueue found' live'
    have space : m.space q' = m.space q := (congrArg m.space brought :)
    exact Machine.granted_transfers live sound' taken live' (onward after) (space ▸ same)

/-! A mapping at the very top of the I/O virtual addresses, and the prudent driver again: while its
device runs, a chain is taken, filled from and returned. -/

def steepSpace : Space where
  ram := (Memory.Ram.empty.run [.add 0x1000 0x1000 .both]).1
  table := ⟨true, [some ⟨0xfffffffffffff000, 0x1000, 0x1000, .both⟩]⟩
  cls := 0

theorem prudentDevice_covered :
    steepSpace.window (0xfffffffffffff000 + .ofNat 0xffe) 1 .reading = .ok ⟨0x1ffe, 1⟩ ∧
      (prudentRunning.machine.returnChain 0 1 8).2 = .ok () ∧
      ∃ filled, ((prudentRunning.step (.request 0 .take)).1.machine.gather 0 Machine.sampleChain
        [0, 0, 0]).2.2 = .ok filled := by
  obtain ⟨parts, rings, _⟩ := checks_cover_uses tableStart_built Machine.wellFormed_sampleRam
    prudentSetup rfl (d := prudentDevice)
  obtain ⟨_, _, buffers⟩ := checks_cover_uses tableStart_built Machine.wellFormed_sampleRam
    prudentActions rfl (d := prudentRunning)
  have live : prudentRunning.machine.liveQueue 0 = .ok Machine.sampleQueue := by decide +kernel
  refine ⟨?_, ?_, ?_⟩
  · have passed : steepSpace.check 0xfffffffffffff000 0xfff .both = .ok () := by decide +kernel
    obtain ⟨a, opened, part⟩ := parts _ steepSpace steepSpace rfl (.refl _) _ _ _ passed
    have start : steepSpace.window 0xfffffffffffff000 0xfff .both = .ok ⟨0x1000, 0xfff⟩ := by
      decide +kernel
    cases Except.ok.inj (opened.symm.trans start)
    obtain ⟨_, _, _, found, sub⟩ := part 0xffe 1 .reading (by decide) (by decide) rfl
    exact found.trans sub
  · have absent : prudentDevice.machine.queues[0]? = none := by decide +kernel
    have there : (prudentDevice.step readyQueue).1.machine.queues[0]? = some Machine.sampleQueue := by
      decide +kernel
    have after : ((prudentDevice.step readyQueue).1.run finish).1.machine =
        prudentRunning.machine := by
      rw [prudentRunning, prudentActions, run_append]
      rfl
    have same : SameMap (prudentDevice.machine.space Machine.sampleQueue)
        (prudentRunning.machine.space Machine.sampleQueue) :=
      ⟨by decide +kernel, by decide +kernel, by decide +kernel⟩
    obtain ⟨q, found, _, _, _, _, served, _⟩ := rings readyQueue 0 _ absent there finish _ after same
    cases Machine.eq_of_liveQueue found live
    exact (served live).1 1 8 (by decide)
  · have taken : (prudentRunning.machine.takeChain 0).2 = .ok (some Machine.sampleChain) := by
      decide +kernel
    have live' : (prudentRunning.step (.request 0 .take)).1.machine.liveQueue 0 =
        .ok Machine.sampleQueue.stepAvailable := by
      decide +kernel
    have same : SameMap (prudentRunning.machine.space Machine.sampleQueue)
        ((prudentRunning.step (.request 0 .take)).1.machine.space Machine.sampleQueue) :=
      ⟨by decide +kernel, by decide +kernel, by decide +kernel⟩
    exact (buffers 0 _ _ live taken [] _ rfl same _ live').1 _

end Device

end VirtioMmio
