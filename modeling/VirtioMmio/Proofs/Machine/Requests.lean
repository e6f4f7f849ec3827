import VirtioMmio.Machine.Operations
import VirtioMmio.Proofs.Queue.Footprint

/-!
Everything a backend may ask of a virtqueue, as one function. Main results: `perform_outcome`, which
says once what a request can do to a machine, and `perform_agrees`, by which two machines that hold
the same bytes wherever the queue may read answer the same and end up the same but for their bytes.
-/

namespace VirtioMmio

open Dma.Space (Agrees SamePlaces Within)
open Memory (Store)
open Queue (Virtqueue)
open Vring (Chain)

inductive Request where
  | take
  | give (head : UInt16) (len : UInt32)
  | wants
  | ask (wanted : Bool)
  | gather (chain : Chain) (buffer : List UInt8)
  | scatter (chain : Chain) (data : List UInt8)

inductive Answer where
  | chain (outcome : Except QueueError (Option Chain))
  | done (outcome : Except QueueError Unit)
  | wish (wanted : Bool)
  -- What the buffer holds afterwards, also if the request was refused half-way.
  | gathered (buffer : List UInt8) (outcome : Except QueueError Nat)
  | scattered (outcome : Except QueueError Nat)

/-- The error of a refused request. -/
def Answer.error? : Answer → Option QueueError
  | .chain (.error e) | .done (.error e) | .gathered _ (.error e) | .scattered (.error e) => some e
  | .chain (.ok _) | .done (.ok _) | .wish _ | .gathered _ (.ok _) | .scattered (.ok _) => none

namespace Machine

def perform (m : Machine) (number : Nat) : Request → Machine × Answer
  | .take => (m.takeChain number).map id .chain
  | .give head len => (m.returnChain number head len).map id .done
  | .wants => (m, .wish (m.wantsInterrupt number))
  | .ask wanted => (m.askNotifications number wanted).map id .done
  | .gather chain buffer =>
    (m.gather number chain buffer).map id fun filled => .gathered filled.1 filled.2
  | .scatter chain data => (m.scatter number chain data).map id .scattered

theorem liveQueue_eq_ok {m : Machine} {number : Nat} {q : Virtqueue}
    (live : m.liveQueue number = .ok q) : m.queues[number]? = some q := by
  simp only [liveQueue] at live
  split at live
  · cases live
  next found =>
    split at live
    · cases live
    · split at live
      · cases live
      · cases live
        exact found

theorem eq_of_liveQueue {m : Machine} {number : Nat} {q q' : Virtqueue}
    (found : m.queues[number]? = some q) (live : m.liveQueue number = .ok q') : q' = q :=
  Option.some.inj ((liveQueue_eq_ok live).symm.trans found)

theorem queue_modifyQueue {m : Machine} {number : Nat} {q : Virtqueue}
    (found : m.queues[number]? = some q) (f : Virtqueue → Virtqueue) :
    (m.modifyQueue number f).queues[number]? = some (f q) := by
  rw [modifyQueue, List.getElem?_modify_eq, found]
  rfl

theorem modifyQueue_modifyQueue (m : Machine) (number : Nat) (f g : Virtqueue → Virtqueue) :
    (m.modifyQueue number f).modifyQueue number g = m.modifyQueue number fun q => g (f q) := by
  simp only [modifyQueue, List.modify_modify_eq]
  rfl

theorem liveQueue_modifyQueue {m : Machine} {number : Nat} {q : Virtqueue}
    (live : m.liveQueue number = .ok q) {f : Virtqueue → Virtqueue}
    (retired : (f q).retired = q.retired) (failed : (f q).failed = q.failed) :
    (m.modifyQueue number f).liveQueue number = .ok (f q) := by
  have found := liveQueue_eq_ok live
  have moved := queue_modifyQueue found f
  simp only [liveQueue, found] at live
  simp only [liveQueue, moved, retired, failed]
  split at live
  · cases live
  next inUse =>
    split at live
    · cases live
    next working => rw [if_neg inUse, if_neg working]

end Machine

/-! ### Taking and returning -/

/-- The queue after a chain was taken from it, or none was there. -/
def Queue.Virtqueue.advance (q : Virtqueue) (next : Option Chain) : Virtqueue :=
  if next.isSome then q.stepAvailable else q

namespace Machine

section Live

variable {m m' : Machine} {number : Nat} {q : Virtqueue}

theorem takeChain_eq_ok_iff (live : m.liveQueue number = .ok q) (next : Option Chain) :
    m.takeChain number = (m', .ok next) ↔
      q.nextChain (m.space q) = .ok next ∧ m' = m.modifyQueue number (·.advance next) := by
  have idle : m.modifyQueue number (fun q => q) = m := by
    have same : m.queues.modify number (fun q => q) = m.queues := List.modify_id number m.queues
    rw [modifyQueue, same]
  simp only [takeChain, live]
  cases q.nextChain (m.space q) with
  | error e => simp
  | ok found =>
    cases found with
    | none =>
      constructor
      · intro done
        cases done
        exact ⟨rfl, idle.symm⟩
      · rintro ⟨same, rfl⟩
        cases same
        exact congrArg (·, _) idle.symm
    | some chain =>
      constructor
      · intro done
        cases done
        exact ⟨rfl, rfl⟩
      · rintro ⟨same, rfl⟩
        cases same
        rfl

theorem returnChain_eq_ok_iff (live : m.liveQueue number = .ok q) (head : UInt16) (len : UInt32) :
    m.returnChain number head len = (m', .ok ()) ↔
      head < q.layout.size ∧ ∃ ram, q.putUsed (m.space q) head len = (ram, .ok ()) ∧
        m' = { m with ram }.modifyQueue number (·.stepUsed) := by
  simp only [returnChain, live]
  split
  next outside =>
    simp [UInt16.not_lt.mpr outside]
  next inside =>
    have inside := UInt16.not_le.mp inside
    split
    next ram e refused => simp [refused]
    next ram done =>
      simp only [done, Prod.mk.injEq, and_true, inside, true_and]
      constructor
      · rintro rfl
        exact ⟨ram, rfl, rfl⟩
      · rintro ⟨_, rfl, rfl⟩
        rfl

theorem takeChain_eq_error_iff (live : m.liveQueue number = .ok q) (e : QueueError) :
    (m.takeChain number).2 = .error e ↔ q.nextChain (m.space q) = .error e := by
  simp only [takeChain, live]
  split
  next e' refused => simp [refused]
  next none => simp [none]
  next chain found => simp [found]

end Live

/-! ### What a request can do -/

/-- The machines that a request can leave behind, once guest RAM is what it will be. -/
inductive Outcome (number : Nat) (m : Machine) : Machine → Prop
  | kept : Outcome number m m
  | failed : Outcome number m (m.fail number)
  | took : Outcome number m (m.modifyQueue number (·.stepAvailable))
  | gave : Outcome number m (m.modifyQueue number (·.stepUsed))

/-- What serving a queue can make of a machine: bytes change only where the queue may write, and
then the queue is moved or failed at most. -/
def Serves (m : Machine) (number : Nat) (q : Virtqueue) (m' : Machine) : Prop :=
  ∃ ram, (m.space q).Within ram ∧ Outcome number { m with ram } m'

section Serves

variable {m : Machine} {number : Nat} {q : Virtqueue}

/-- Guest RAM stays as it is where an operation writes nothing. -/
theorem Outcome.serves {m' : Machine} (outcome : Outcome number m m') : Serves m number q m' :=
  ⟨m.ram, .refl (m.space q), outcome⟩

theorem takeChain_serves : Serves m number q (m.takeChain number).1 := by
  unfold takeChain
  split
  · exact Outcome.kept.serves
  · split
    · exact Outcome.failed.serves
    · exact Outcome.kept.serves
    · exact Outcome.took.serves

theorem returnChain_serves (found : m.queues[number]? = some q) (head : UInt16) (len : UInt32) :
    Serves m number q (m.returnChain number head len).1 := by
  unfold returnChain
  split
  · exact Outcome.kept.serves
  next q' live =>
    cases eq_of_liveQueue found live
    have written := q.putUsed_within (m.space q) head len
    split
    · exact Outcome.kept.serves
    · split
      next ram e done =>
        rw [done] at written
        exact ⟨ram, written, .failed⟩
      next ram done =>
        rw [done] at written
        exact ⟨ram, written, .gave⟩

theorem askNotifications_serves (found : m.queues[number]? = some q) (wanted : Bool) :
    Serves m number q (m.askNotifications number wanted).1 := by
  unfold askNotifications
  split
  · exact Outcome.kept.serves
  next q' live =>
    cases eq_of_liveQueue found live
    split
    · exact Outcome.failed.serves
    next ram done => exact ⟨ram, q.putWish_within done, .kept⟩

theorem gather_serves (chain : Chain) (buffer : List UInt8) :
    Serves m number q (m.gather number chain buffer).1 := by
  unfold gather
  split
  · exact Outcome.kept.serves
  · split
    · exact Outcome.failed.serves
    · exact Outcome.kept.serves

theorem scatter_serves (found : m.queues[number]? = some q) (chain : Chain) (data : List UInt8) :
    Serves m number q (m.scatter number chain data).1 := by
  unfold scatter
  split
  · exact Outcome.kept.serves
  next q' live =>
    cases eq_of_liveQueue found live
    have written := Queue.scatter_within (m.space q) chain.writable 0 data
    split
    next ram e done =>
      rw [done] at written
      exact ⟨ram, written, .failed⟩
    next ram copied done =>
      rw [done] at written
      exact ⟨ram, written, .kept⟩

/-- A request changes bytes only where the queue may write, and then at most moves or fails it. -/
theorem perform_outcome (found : m.queues[number]? = some q) (request : Request) :
    ∃ ram, (m.space q).Within ram ∧
      Outcome number { m with ram } (m.perform number request).1 := by
  cases request with
  | take => exact takeChain_serves
  | give head len => exact returnChain_serves found head len
  | wants => exact Outcome.kept.serves
  | ask wanted => exact askNotifications_serves found wanted
  | gather chain buffer => exact gather_serves chain buffer
  | scatter chain data => exact scatter_serves found chain data

end Serves

/-- A virtqueue that is not live serves nothing: every request but the question whether the driver
wants interrupts is refused, and nothing changes. -/
theorem perform_dead {m : Machine} {number : Nat} {e : QueueError}
    (dead : m.liveQueue number = .error e) (request : Request) :
    (m.perform number request).1 = m ∧
      (request ≠ .wants → (m.perform number request).2.error? = some e) := by
  cases request with
  | wants => exact ⟨rfl, fun other => absurd rfl other⟩
  | _ =>
    simp only [perform, Prod.map, id, takeChain, returnChain, askNotifications, gather, scatter,
      dead]
    exact ⟨trivial, fun _ => rfl⟩

/-- A number without a queue is served without any effect. -/
theorem perform_absent {m : Machine} {number : Nat} (absent : m.queues[number]? = none)
    (request : Request) : (m.perform number request).1 = m := by
  have dead : m.liveQueue number = .error .retired := by simp only [liveQueue, absent]
  exact (perform_dead dead request).1

namespace Outcome

variable {number : Nat} {m m' : Machine}

theorem ram (outcome : Outcome number m m') : m'.ram = m.ram := by
  cases outcome with
  | failed =>
    simp only [fail]
    split
    · rfl
    · split <;> rfl
  | _ => rfl

end Outcome

theorem perform_within {m : Machine} {number : Nat} {q : Virtqueue}
    (found : m.queues[number]? = some q) (request : Request) :
    (m.space q).Within (m.perform number request).1.ram := by
  obtain ⟨ram, within, outcome⟩ := perform_outcome found request
  rw [outcome.ram]
  exact within

/-! ### Machines with other bytes -/

def withStore (m : Machine) (store : Store) : Machine :=
  { m with ram.store := store }

/-- The machines differ in the bytes of guest RAM at most. -/
def Twins (m m' : Machine) : Prop :=
  ∃ store, m' = m.withStore store

namespace Twins

variable {m m' : Machine}

theorem fail (twins : Twins m m') (number : Nat) : Twins (m.fail number) (m'.fail number) := by
  obtain ⟨store, rfl⟩ := twins
  refine ⟨store, ?_⟩
  simp only [Machine.fail, withStore]
  split
  · rfl
  · split <;> rfl

theorem modifyQueue (twins : Twins m m') (number : Nat) (f : Virtqueue → Virtqueue) :
    Twins (m.modifyQueue number f) (m'.modifyQueue number f) := by
  obtain ⟨store, rfl⟩ := twins
  exact ⟨store, rfl⟩

theorem withRam (twins : Twins m m') {ram ram' : Memory.Ram}
    (regions : ram'.regions = ram.regions) : Twins { m with ram } { m' with ram := ram' } := by
  obtain ⟨store, rfl⟩ := twins
  obtain ⟨places, bytes⟩ := ram'
  cases regions
  exact ⟨bytes, rfl⟩

/-- A transfer that came to the same in both memories, and stayed within each, leaves twins. -/
theorem of_within (twins : Twins m m') {q : Virtqueue} {α : Type}
    {one two : Memory.Ram × Except MemoryError α} (outcome : two.2 = one.2)
    (within : (m.space q).Within one.1) (within' : (m'.space q).Within two.1) :
    ∃ ram ram' result, one = (ram, result) ∧ two = (ram', result) ∧
      Twins { m with ram } { m' with ram := ram' } := by
  have before : m'.ram.regions = m.ram.regions := by
    obtain ⟨store, rfl⟩ := twins
    rfl
  have regions : two.1.regions = one.1.regions :=
    within'.regions.trans (before.trans within.regions.symm)
  exact ⟨one.1, two.1, one.2, rfl, Prod.ext rfl outcome, twins.withRam regions⟩

end Twins

theorem agrees_withStore {m : Machine} {q : Virtqueue} {store : Store}
    (same : ∀ a, (m.space q).Grants .reading a → store.byte a = m.ram.store.byte a) :
    Agrees (m.space q) ((m.withStore store).space q) where
  regions := rfl
  table := rfl
  cls := rfl
  bytes := same

/-- Two runs of an operation answered the same and left twins behind. -/
def Alike {α : Type} (one two : Machine × α) : Prop :=
  two.2 = one.2 ∧ Twins one.1 two.1

theorem Alike.map {α β : Type} {one two : Machine × α} (alike : Alike one two) (f : α → β) :
    Alike (one.map id f) (two.map id f) :=
  ⟨congrArg f alike.1, alike.2⟩

section Alike

variable {m : Machine} {number : Nat} {q : Virtqueue} {store : Store}

theorem twins_withStore (m : Machine) (store : Store) : Twins m (m.withStore store) :=
  ⟨store, rfl⟩

theorem liveQueue_withStore (m : Machine) (store : Store) (number : Nat) :
    (m.withStore store).liveQueue number = m.liveQueue number := rfl

theorem takeChain_alike (found : m.queues[number]? = some q)
    (agrees : Agrees (m.space q) ((m.withStore store).space q)) :
    Alike (m.takeChain number) ((m.withStore store).takeChain number) := by
  have twins := twins_withStore m store
  unfold takeChain
  rw [liveQueue_withStore]
  cases live : m.liveQueue number with
  | error e => exact ⟨rfl, twins⟩
  | ok q' =>
    cases eq_of_liveQueue found live
    simp only [q.nextChain_congr agrees]
    cases q.nextChain (m.space q) with
    | error e => exact ⟨rfl, twins.fail number⟩
    | ok next =>
      cases next with
      | none => exact ⟨rfl, twins⟩
      | some chain => exact ⟨rfl, twins.modifyQueue number _⟩

theorem returnChain_alike (found : m.queues[number]? = some q)
    (agrees : Agrees (m.space q) ((m.withStore store).space q)) (head : UInt16) (len : UInt32) :
    Alike (m.returnChain number head len) ((m.withStore store).returnChain number head len) := by
  have twins := twins_withStore m store
  unfold returnChain
  rw [liveQueue_withStore]
  cases live : m.liveQueue number with
  | error e => exact ⟨rfl, twins⟩
  | ok q' =>
    cases eq_of_liveQueue found live
    dsimp only
    split
    · exact ⟨rfl, twins⟩
    · obtain ⟨ram, ram', result, one, two, still⟩ :=
        twins.of_within (q.putUsed_congr agrees.toSamePlaces head len)
          (q.putUsed_within _ head len) (q.putUsed_within _ head len)
      rw [one, two]
      cases result with
      | error e => exact ⟨rfl, still.fail number⟩
      | ok => exact ⟨rfl, still.modifyQueue number _⟩

theorem wantsInterrupt_withStore (found : m.queues[number]? = some q)
    (agrees : Agrees (m.space q) ((m.withStore store).space q)) :
    (m.withStore store).wantsInterrupt number = m.wantsInterrupt number := by
  have queues : (m.withStore store).queues[number]? = some q := found
  simp only [wantsInterrupt, queues, found, q.wantsInterrupt_congr agrees]

theorem askNotifications_alike (found : m.queues[number]? = some q)
    (agrees : Agrees (m.space q) ((m.withStore store).space q)) (wanted : Bool) :
    Alike (m.askNotifications number wanted)
      ((m.withStore store).askNotifications number wanted) := by
  have twins := twins_withStore m store
  unfold askNotifications
  rw [liveQueue_withStore]
  cases live : m.liveQueue number with
  | error e => exact ⟨rfl, twins⟩
  | ok q' =>
    cases eq_of_liveQueue found live
    dsimp only [Virtqueue.putWish, Dma.Space.write16]
    rcases agrees.toSamePlaces.write q.layout.used (LittleEndian.encode 2
      (if wanted then 0 else Virtqueue.noNotifyFlag).toNat) with
      ⟨e, one, two⟩ | ⟨ram, ram', one, two, still⟩
    · rw [one, two]
      exact ⟨rfl, twins.fail number⟩
    · rw [one, two]
      exact ⟨rfl, twins.withRam still.regions⟩

theorem gather_alike (found : m.queues[number]? = some q)
    (agrees : Agrees (m.space q) ((m.withStore store).space q)) (chain : Chain)
    (buffer : List UInt8) :
    Alike (m.gather number chain buffer) ((m.withStore store).gather number chain buffer) := by
  have twins := twins_withStore m store
  unfold gather
  rw [liveQueue_withStore]
  cases live : m.liveQueue number with
  | error e => exact ⟨rfl, twins⟩
  | ok q' =>
    cases eq_of_liveQueue found live
    -- What was filled before a refusal is the same, too.
    simp only [Queue.gather_congr agrees]
    obtain ⟨buffer', result⟩ := Queue.gather (m.space q) chain.readable [] buffer
    cases result with
    | error e => exact ⟨rfl, twins.fail number⟩
    | ok filled => exact ⟨rfl, twins⟩

theorem scatter_alike (found : m.queues[number]? = some q)
    (agrees : Agrees (m.space q) ((m.withStore store).space q)) (chain : Chain)
    (data : List UInt8) :
    Alike (m.scatter number chain data) ((m.withStore store).scatter number chain data) := by
  have twins := twins_withStore m store
  unfold scatter
  rw [liveQueue_withStore]
  cases live : m.liveQueue number with
  | error e => exact ⟨rfl, twins⟩
  | ok q' =>
    cases eq_of_liveQueue found live
    dsimp only
    -- A transfer that stops half-way has written the same places in both memories.
    obtain ⟨ram, ram', result, one, two, still⟩ :=
      twins.of_within (Queue.scatter_congr agrees.toSamePlaces chain.writable 0 data)
        (Queue.scatter_within _ chain.writable 0 data)
        (Queue.scatter_within _ chain.writable 0 data)
    rw [one, two]
    cases result with
    | error e => exact ⟨rfl, still.fail number⟩
    | ok copied => exact ⟨rfl, still⟩

/-- Two machines that hold the same bytes wherever a queue may read serve a request alike. -/
theorem perform_agrees (found : m.queues[number]? = some q)
    (same : ∀ a, (m.space q).Grants .reading a → store.byte a = m.ram.store.byte a)
    (request : Request) :
    ((m.withStore store).perform number request).2 = (m.perform number request).2 ∧
      Twins (m.perform number request).1 ((m.withStore store).perform number request).1 := by
  have agrees := agrees_withStore same
  cases request with
  | take => exact (takeChain_alike found agrees).map Answer.chain
  | give head len => exact (returnChain_alike found agrees head len).map Answer.done
  | wants =>
    exact ⟨congrArg Answer.wish (wantsInterrupt_withStore found agrees), twins_withStore m store⟩
  | ask wanted => exact (askNotifications_alike found agrees wanted).map Answer.done
  | gather chain buffer =>
    exact (gather_alike found agrees chain buffer).map fun filled =>
      Answer.gathered filled.1 filled.2
  | scatter chain data => exact (scatter_alike found agrees chain data).map Answer.scattered

end Alike

end Machine

end VirtioMmio
