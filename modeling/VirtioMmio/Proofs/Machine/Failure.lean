import VirtioMmio.Proofs.Machine.Requests

/-!
Failure of a virtqueue. Main result: `perform_refused`. A request that a live virtqueue refuses
fails the virtqueue and tells the driver, whatever it met and however far it had come; only a head
outside the descriptor table does no harm (`perform_stray`). By `perform_failed` a failed virtqueue
serves nothing any more.
-/

namespace VirtioMmio

open Queue (Virtqueue)

/-- The request returns a chain that the virtqueue cannot have. -/
def Request.IsStray (q : Virtqueue) : Request → Prop
  | .give head _ => q.layout.size ≤ head
  | _ => False

namespace Answer

variable {e : QueueError}

theorem error?_chain {outcome : Except QueueError (Option Vring.Chain)} :
    (chain outcome).error? = some e ↔ outcome = .error e := by
  cases outcome <;> simp [error?]

theorem error?_done {outcome : Except QueueError Unit} :
    (done outcome).error? = some e ↔ outcome = .error e := by
  cases outcome <;> simp [error?]

theorem error?_gathered {buffer : List UInt8} {outcome : Except QueueError Nat} :
    (gathered buffer outcome).error? = some e ↔ outcome = .error e := by
  cases outcome <;> simp [error?]

theorem error?_scattered {outcome : Except QueueError Nat} :
    (scattered outcome).error? = some e ↔ outcome = .error e := by
  cases outcome <;> simp [error?]

end Answer

namespace Machine

/-- The virtqueue failed and the driver was told: its positions in the rings stand, and the line was
raised for a change of the configuration. -/
structure Breaks (m : Machine) (number : Nat) (q : Virtqueue) (m' : Machine) : Prop where
  queues : m'.queues = m.queues.set number { q with failed := true }
  line : m'.line = (m.line.raise .configOnly).1
  pending : m'.line.pending.config = true
  calls : m'.calls = m.calls ++ (m.line.raise .configOnly).2.map .line
  dma : m'.dma = m.dma

theorem failed_of_liveQueue {m : Machine} {number : Nat} {q : Virtqueue}
    (live : m.liveQueue number = .ok q) : q.failed = false := by
  simp only [liveQueue] at live
  split at live
  · cases live
  · split at live
    · cases live
    · split at live
      · cases live
      next sound =>
        cases live
        exact Bool.eq_false_iff.mpr sound

/-- The first failure of a virtqueue, whatever was written to guest RAM before. -/
theorem breaks_fail {m : Machine} {number : Nat} {q : Virtqueue}
    (live : m.liveQueue number = .ok q) (ram : Memory.Ram) :
    Breaks m number q (({ m with ram } : Machine).fail number) := by
  have found : ({ m with ram } : Machine).queues[number]? = some q := liveQueue_eq_ok live
  have whole : ({ m with ram } : Machine).fail number =
      (({ m with ram } : Machine).modifyQueue number fun q => { q with failed := true }).raiseLine
        .configOnly := by
    rw [fail, found]
    simp only [failed_of_liveQueue live, Bool.false_eq_true, if_false]
  rw [whole]
  refine ⟨?_, rfl, ?_, rfl, rfl⟩
  · show m.queues.modify number _ = _
    rw [List.modify_eq_set_getElem?, show m.queues[number]? = some q from found]
    rfl
  · show (m.line.raise .configOnly).1.pending.config = true
    rw [Interrupt.Line.pending_raise]
    exact Bool.or_true _

/-- A head outside the descriptor table is refused and does no harm. -/
theorem perform_stray {m : Machine} {number : Nat} {q : Virtqueue}
    (live : m.liveQueue number = .ok q) {head : UInt16} (outside : q.layout.size ≤ head)
    (len : UInt32) :
    m.perform number (.give head len) =
      (m, .done (.error (.descriptorIndex head q.layout.size))) := by
  simp only [perform, Prod.map, id, returnChain, live, outside, if_true]

section Refused

variable {m : Machine} {number : Nat} {q : Virtqueue} {e : QueueError}

/-! Nothing was written yet where an operation only reads; otherwise guest RAM keeps what was stored
before the refusal. -/

theorem takeChain_refused (live : m.liveQueue number = .ok q)
    (refused : (m.takeChain number).2 = .error e) : Breaks m number q (m.takeChain number).1 := by
  simp only [takeChain, live] at refused ⊢
  cases next : q.nextChain (m.space q) with
  | error e => exact breaks_fail live m.ram
  | ok chain =>
    rw [next] at refused
    cases chain <;> cases refused

theorem returnChain_refused (live : m.liveQueue number = .ok q) {head : UInt16}
    (inside : ¬ q.layout.size ≤ head) {len : UInt32}
    (refused : (m.returnChain number head len).2 = .error e) :
    Breaks m number q (m.returnChain number head len).1 := by
  simp only [returnChain, live, inside, if_false] at refused ⊢
  generalize q.putUsed (m.space q) head len = put at refused ⊢
  obtain ⟨ram, outcome⟩ := put
  cases outcome with
  | error e => exact breaks_fail live ram
  | ok => cases refused

theorem askNotifications_refused (live : m.liveQueue number = .ok q) {wanted : Bool}
    (refused : (m.askNotifications number wanted).2 = .error e) :
    Breaks m number q (m.askNotifications number wanted).1 := by
  simp only [askNotifications, live] at refused ⊢
  cases put : q.putWish (m.space q) wanted with
  | error e => exact breaks_fail live m.ram
  | ok ram =>
    rw [put] at refused
    cases refused

theorem gather_refused (live : m.liveQueue number = .ok q) {chain : Vring.Chain}
    {buffer : List UInt8} (refused : (m.gather number chain buffer).2.2 = .error e) :
    Breaks m number q (m.gather number chain buffer).1 := by
  simp only [gather, live] at refused ⊢
  generalize Queue.gather (m.space q) chain.readable [] buffer = filled at refused ⊢
  obtain ⟨buffer', outcome⟩ := filled
  cases outcome with
  | error e => exact breaks_fail live m.ram
  | ok filled => cases refused

theorem scatter_refused (live : m.liveQueue number = .ok q) {chain : Vring.Chain}
    {data : List UInt8} (refused : (m.scatter number chain data).2 = .error e) :
    Breaks m number q (m.scatter number chain data).1 := by
  simp only [scatter, live] at refused ⊢
  generalize Queue.scatter (m.space q) chain.writable 0 data = put at refused ⊢
  obtain ⟨ram, outcome⟩ := put
  cases outcome with
  | error e => exact breaks_fail live ram
  | ok copied => cases refused

end Refused

/-- Any other refusal by a live virtqueue fails it. -/
theorem perform_refused {m : Machine} {number : Nat} {q : Virtqueue}
    (live : m.liveQueue number = .ok q) {request : Request} (good : ¬ request.IsStray q)
    {e : QueueError} (refused : (m.perform number request).2.error? = some e) :
    Breaks m number q (m.perform number request).1 := by
  cases request with
  | take => exact takeChain_refused live (Answer.error?_chain.mp refused)
  | give head len => exact returnChain_refused live good (Answer.error?_done.mp refused)
  | wants => cases refused
  | ask wanted => exact askNotifications_refused live (Answer.error?_done.mp refused)
  | gather chain buffer => exact gather_refused live (Answer.error?_gathered.mp refused)
  | scatter chain data => exact scatter_refused live (Answer.error?_scattered.mp refused)

theorem liveQueue_failed {m : Machine} {number : Nat} {q : Virtqueue}
    (found : m.queues[number]? = some q) (failed : q.failed = true) (kept : q.retired = false) :
    m.liveQueue number = .error .failed := by
  simp only [liveQueue, found, kept, failed, Bool.false_eq_true, if_false, if_true]

/-- A virtqueue that failed, and was not retired since, says so and does nothing. -/
theorem perform_failed {m : Machine} {number : Nat} {q : Virtqueue}
    (found : m.queues[number]? = some q) (failed : q.failed = true) (kept : q.retired = false)
    (request : Request) :
    (m.perform number request).1 = m ∧
      (request ≠ .wants → (m.perform number request).2.error? = some .failed) :=
  perform_dead (liveQueue_failed found failed kept) request

end Machine

end VirtioMmio
