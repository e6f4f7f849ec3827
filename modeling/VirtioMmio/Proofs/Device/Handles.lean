import VirtioMmio.Proofs.Device.Confinement
import VirtioMmio.Proofs.Device.Negotiation

/-!
Handles of virtqueues that the device does not work with any more: its status lacks the driver-ok
bit, or the queue was brought up anew. Main result: `idle_handles_leave_memory`. Nothing that a
backend does with such a handle has any effect, and all but one request are answered without a look
at memory. The question whether the driver wants interrupts is the exception: it reads the flags of
the available ring wherever the handle was brought up.
-/

namespace VirtioMmio

open Backend (Session)
open Dma.Space (SamePlaces)
open Memory (Store)
open Queue (Virtqueue)

namespace Machine

/-- Dead virtqueues answer alike, whatever the machines hold. -/
theorem perform_dead_answer {m m' : Machine} {number : Nat} {e : QueueError}
    (dead : m.liveQueue number = .error e) (dead' : m'.liveQueue number = .error e)
    {request : Request} (other : request ≠ .wants) :
    (m'.perform number request).2 = (m.perform number request).2 := by
  cases request with
  | wants => exact absurd rfl other
  | _ =>
    simp only [perform, Prod.map, id, takeChain, returnChain, askNotifications, gather, scatter,
      dead, dead']

end Machine

namespace Device

/-- The two bytes of the flags in the available ring of a virtqueue, if the ring is there. -/
def FlagsAt (d : Device) (number a : Nat) : Prop :=
  ∃ q base, d.machine.queues[number]? = some q ∧
    (d.machine.space q).locate q.layout.avail 2 .reading = .ok base ∧ base ≤ a ∧ a < base + 2

/-- Whether the driver wants interrupts is answered from the flags of its available ring alone. -/
theorem answersFrom_flags (d : Device) (number : Nat) :
    d.AnswersFrom (.request number .wants) (d.FlagsAt number) := by
  intro one two same
  have wishes : (d.withStore two).machine.wantsInterrupt number =
      (d.withStore one).machine.wantsInterrupt number := by
    have queues (store : Store) :
        (d.withStore store).machine.queues[number]? = d.machine.queues[number]? := rfl
    simp only [Machine.wantsInterrupt, queues]
    cases found : d.machine.queues[number]? with
    | none => rfl
    | some q =>
      have places : SamePlaces ((d.withStore one).machine.space q)
          ((d.withStore two).machine.space q) := ⟨rfl, rfl, rfl⟩
      have word := places.read q.layout.avail 2 fun base there i inside =>
        (same (base + i) ⟨q, base, found, there, by omega, by omega⟩).symm
      simp only [Virtqueue.wantsInterrupt, Dma.Space.read16, word]
  exact congrArg (fun wish => Response.answer (.wish wish)) wishes.symm

/-- The handle that a session has for a queue is not the one that the device works with: the driver
is not done with its set-up, or the queue was brought up as another virtqueue or not at all. -/
def Idle (d : Device) (i number : Nat) : Prop :=
  d.isRunning = false ∨ (d.registers.queues[i]?.bind (·.live)) ≠ some number

/-- A session with an idle handle is over. -/
theorem retired_of_idle {d : Device} (linked : d.Linked) {n : Nat} {s : Session}
    (found : d.sessions[n]? = some s) {i number : Nat} (handle : s.queue? i = some number)
    (idle : d.Idle i number) : s.retired = true := by
  -- A session that goes on has the numbers of the queues that are up.
  by_contra live
  have held := linked.held found (Bool.eq_false_iff.mpr live)
  rcases idle with early | other
  · rw [linked.running n held] at early
    cases early
  · apply other
    rw [Session.queue?, (linked.matching n s held found).1, List.getElem?_map] at handle
    rw [← handle]
    cases d.registers.queues[i]? <;> rfl

/-- The numbers that a session has for its queues are idle whenever the driver is not done with its
set-up, or the queue was brought up as another virtqueue or not at all. Whatever a backend then does
with such a number leaves the device as it is, guest memory included, and is answered without a look
at memory. Only the question whether the driver wants interrupts is answered from the flags of the
available ring, wherever that was. -/
theorem idle_handles_leave_memory {profile : Profile} {options : Options} {ram : Memory.Ram}
    {d₀ d : Device} (built : Device.new profile options ram = .ok d₀) (actions : List Action)
    (reached : (d₀.run actions).1 = d) {n : Nat} {s : Session} (found : d.sessions[n]? = some s)
    {i number : Nat} (handle : s.queue? i = some number) (idle : d.Idle i number)
    (request : Request) :
    (d.step (.request number request)).1 = d ∧
      (∀ a, ¬ d.Changes (.request number request) a) ∧
      (request ≠ .wants → d.AnswersFrom (.request number request) fun _ => False) ∧
      (request = .wants → d.AnswersFrom (.request number request) (d.FlagsAt number)) := by
  have orderly : d.Orderly := reached ▸ orderly_run (orderly_new built) actions
  have ended := retired_of_idle orderly.linked found handle idle
  have listed : some number ∈ s.queues := by
    exact List.mem_of_getElem? (Option.join_eq_some_iff.mp handle)
  have retired := orderly.linked.handles s (List.mem_of_getElem? found) number listed
  rw [ended] at retired
  have inert := inert_of_retired orderly.linked found ended
  obtain ⟨_, same, _⟩ := inert.requests number listed request
  refine ⟨same, ?_, ?_, ?_⟩
  · intro a changed
    rw [Changes, same] at changed
    exact changed rfl
  · intro other one two _
    -- Whether the queue may be used is decided without memory.
    have dead (store : Store) : (d.withStore store).machine.liveQueue number = .error .retired :=
      Machine.liveQueue_retired retired
    exact congrArg Response.answer (Machine.perform_dead_answer (dead two) (dead one) other)
  · rintro rfl
    exact answersFrom_flags d number

/-! The driver of the console resets the device, so that the number of its queue is idle. The
backend may still ask whether it wants interrupts, and is told what memory holds by now. -/

def consoleResetActions : List Action :=
  consoleActions.take 13 ++ [.access (.write 0) 0x70 4]

def consoleReset : Device :=
  (consoleStart.run consoleResetActions).1

theorem consoleReset_idle :
    (consoleReset.step (.request 0 .take)).1 = consoleReset ∧
      consoleReset.AnswersFrom (.request 0 .take) (fun _ => False) ∧
      consoleReset.AnswersFrom (.request 0 .wants) (consoleReset.FlagsAt 0) := by
  have built := Setup.new_of_build consoleStart_built
  have session : consoleReset.sessions[0]? = some ⟨0x100000000, [some 0, none], true⟩ := by
    decide +kernel
  have idle : consoleReset.Idle 0 0 := by
    left
    decide +kernel
  have handle : (⟨0x100000000, [some 0, none], true⟩ : Session).queue? 0 = some 0 := rfl
  have ended := idle_handles_leave_memory built consoleResetActions rfl (d := consoleReset) session
    handle idle
  obtain ⟨same, _, blind, _⟩ := ended .take
  obtain ⟨_, _, _, flags⟩ := ended .wants
  exact ⟨same, blind nofun, flags rfl⟩

/-- Two memories that differ in the flags of a ring no longer in use are told apart. -/
theorem consoleReset_peeks :
    consoleReset.isRunning = false ∧
      consoleReset.sessions[0]? = some ⟨0x100000000, [some 0, none], true⟩ ∧
      ¬ consoleReset.AnswersFrom (.request 0 .wants) (fun _ => False) := by
  refine ⟨by decide +kernel, by decide +kernel, ?_⟩
  intro blind
  have same := blind .empty (Store.empty.write 0x1100 [1]) nofun
  have wanted : (consoleReset.withStore .empty).machine.wantsInterrupt 0 = true := by
    decide +kernel
  have unwanted : (consoleReset.withStore (Store.empty.write 0x1100 [1])).machine.wantsInterrupt 0 =
      false := by
    decide +kernel
  injection same with answer
  injection answer with wish
  rw [wanted, unwanted] at wish
  cases wish

end Device

end VirtioMmio
