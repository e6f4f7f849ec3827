import VirtioMmio.Backend.Session
import VirtioMmio.Proofs.Machine.Requests

/-!
Machines that went through something before. A machine numbers its virtqueues in order of
appearance, so one with a past gives the next virtqueue a higher number than a new one would, and
that is all the difference it makes: every operation commutes with `Machine.after`.
-/

namespace VirtioMmio

open Backend (BackendCall Call Session)
open Interrupt (Causes)
open Queue (Registers Virtqueue)

/-- The virtqueues, sessions and calls of a time that is over. -/
structure Past where
  queues : List Virtqueue
  sessions : List Session
  calls : List Call

namespace Past

variable (p : Past)

/-- The number that a virtqueue has after the past. -/
def queue (number : Nat) : Nat :=
  p.queues.length + number

def session (number : Nat) : Nat :=
  p.sessions.length + number

def registers (r : Registers) : Registers :=
  { r with live := r.live.map p.queue }

def backendCall : BackendCall → BackendCall
  | .driverOk features queues => .driverOk features (queues.map (·.map p.queue))
  | other => other

def call : Call → Call
  | .backend other => .backend (p.backendCall other)
  | other => other

theorem isUp_registers (r : Registers) : (p.registers r).isUp = r.isUp := by
  simp [registers, Registers.isUp]

theorem registers_blank : p.registers .blank = .blank := rfl

/-- A session with the numbers of its virtqueues after the past. -/
def kept (s : Session) : Session :=
  { s with queues := s.queues.map (·.map p.queue) }

theorem map_call_line (calls : List Interrupt.LineCall) :
    (calls.map Call.line).map p.call = calls.map Call.line := by
  rw [List.map_map]
  rfl

theorem map_call_backend (calls : List BackendCall) :
    (calls.map Call.backend).map p.call = (calls.map p.backendCall).map Call.backend := by
  rw [List.map_map, List.map_map]
  rfl

end Past

namespace Machine

def after (m : Machine) (p : Past) : Machine :=
  { m with queues := p.queues ++ m.queues, calls := p.calls ++ m.calls.map p.call }

variable (p : Past)

theorem record_after (m : Machine) (calls : List Call) :
    (m.after p).record (calls.map p.call) = (m.record calls).after p := by
  simp only [record, after, List.map_append, List.append_assoc]

theorem withLine_after (m : Machine) (change : Interrupt.Line × List Interrupt.LineCall) :
    (m.after p).withLine change = (m.withLine change).after p := by
  have recorded := record_after p { m with line := change.1 } (change.2.map .line)
  rw [p.map_call_line] at recorded
  exact recorded

theorem raiseLine_after (m : Machine) (causes : Causes) :
    (m.after p).raiseLine causes = (m.raiseLine causes).after p :=
  withLine_after p m _

theorem clearLine_after (m : Machine) (causes : Causes) :
    (m.after p).clearLine causes = (m.clearLine causes).after p :=
  withLine_after p m _

theorem lowerLine_after (m : Machine) : (m.after p).lowerLine = m.lowerLine.after p :=
  withLine_after p m _

/-! ### Virtqueues -/

theorem getElem?_queues_after (m : Machine) (number : Nat) :
    (m.after p).queues[p.queue number]? = m.queues[number]? := by
  simp only [after, Past.queue]
  rw [List.getElem?_append_right (Nat.le_add_right _ _), Nat.add_sub_cancel_left]

theorem modify_append_right {α : Type} (front rest : List α) (n : Nat) (f : α → α) :
    (front ++ rest).modify (front.length + n) f = front ++ rest.modify n f := by
  induction front with
  | nil => simp
  | cons x front ih =>
    have next : (x :: front).length + n = (front.length + n) + 1 := by
      rw [List.length_cons]
      omega
    rw [next, List.cons_append, List.modify_succ_cons, ih, List.cons_append]

theorem modify_map {α β : Type} (g : α → β) {f : β → β} (f' : α → α)
    (commutes : ∀ x, f (g x) = g (f' x)) (list : List α) (n : Nat) :
    (list.map g).modify n f = (list.modify n f').map g := by
  apply List.ext_getElem?
  intro i
  simp only [List.getElem?_modify, List.getElem?_map]
  cases list[i]? with
  | none => rfl
  | some x =>
    simp only [Option.map_some]
    split
    · exact congrArg some (commutes x)
    · rfl

theorem modifyQueue_after (m : Machine) (number : Nat) (f : Virtqueue → Virtqueue) :
    (m.after p).modifyQueue (p.queue number) f = (m.modifyQueue number f).after p := by
  simp only [modifyQueue, after, Past.queue, modify_append_right]

theorem fail_after (m : Machine) (number : Nat) :
    (m.after p).fail (p.queue number) = (m.fail number).after p := by
  simp only [fail]
  rw [getElem?_queues_after]
  split
  · rfl
  · split
    · rfl
    · rw [modifyQueue_after, raiseLine_after]

theorem liveQueue_after (m : Machine) (number : Nat) :
    (m.after p).liveQueue (p.queue number) = m.liveQueue number := by
  simp only [liveQueue]
  rw [getElem?_queues_after]

theorem retireLive_after (m : Machine) (r : Registers) :
    (m.after p).retireLive (p.registers r) = (m.retireLive r).after p := by
  simp only [retireLive, Past.registers]
  cases r.live with
  | none => rfl
  | some number => exact modifyQueue_after p m number _

theorem foldl_retireLive_after (m : Machine) (queues : List Registers) :
    (queues.map p.registers).foldl retireLive (m.after p) =
      (queues.foldl retireLive m).after p := by
  induction queues generalizing m with
  | nil => rfl
  | cons r queues ih => rw [List.map_cons, List.foldl_cons, retireLive_after, ih, List.foldl_cons]

theorem bringUp_after (m : Machine) (r : Registers) (index max : UInt16) (indirect : Bool) :
    (m.after p).bringUp (p.registers r) index max indirect =
      (m.bringUp r index max indirect).map fun (r, m) => (p.registers r, m.after p) := by
  simp only [bringUp]
  rw [p.isUp_registers]
  split
  · rfl
  · simp only [Past.registers]
    cases Vring.Layout.new r.size max r.desc r.driver r.device with
    | error e => rfl
    | ok layout =>
      dsimp only
      have backed : layout.requireBacked ⟨(m.after p).ram, (m.after p).dma, index⟩ =
          layout.requireBacked ⟨m.ram, m.dma, index⟩ := rfl
      rw [backed]
      cases layout.requireBacked ⟨m.ram, m.dma, index⟩ with
      | error e => rfl
      | ok =>
        simp [Except.map, after, Past.queue]

/-! ### Requests -/

section Requests

variable (m : Machine) (number : Nat)

theorem space_after (q : Virtqueue) : (m.after p).space q = m.space q := rfl

theorem withRam_after (ram : Memory.Ram) :
    { m.after p with ram } = ({ m with ram } : Machine).after p := rfl

/-! Each operation looks the queue up, works in its space, and fails or moves it. -/

theorem takeChain_after :
    (m.after p).takeChain (p.queue number) = (m.takeChain number).map (·.after p) id := by
  simp only [takeChain, liveQueue_after]
  cases m.liveQueue number with
  | error e => rfl
  | ok q =>
    dsimp only
    rw [space_after]
    split
    · rw [fail_after]; rfl
    · rfl
    · rw [modifyQueue_after]; rfl

theorem returnChain_after (head : UInt16) (len : UInt32) :
    (m.after p).returnChain (p.queue number) head len =
      (m.returnChain number head len).map (·.after p) id := by
  simp only [returnChain, liveQueue_after]
  cases m.liveQueue number with
  | error e => rfl
  | ok q =>
    dsimp only
    rw [space_after]
    split
    · rfl
    · split
      · rw [withRam_after, fail_after]; rfl
      · rw [withRam_after, modifyQueue_after]; rfl

theorem wantsInterrupt_after :
    (m.after p).wantsInterrupt (p.queue number) = m.wantsInterrupt number := by
  simp only [wantsInterrupt, getElem?_queues_after]
  rfl

theorem askNotifications_after (wanted : Bool) :
    (m.after p).askNotifications (p.queue number) wanted =
      (m.askNotifications number wanted).map (·.after p) id := by
  simp only [askNotifications, liveQueue_after]
  cases m.liveQueue number with
  | error e => rfl
  | ok q =>
    dsimp only
    rw [space_after]
    split
    · rw [fail_after]; rfl
    · rfl

theorem gather_after (chain : Vring.Chain) (buffer : List UInt8) :
    (m.after p).gather (p.queue number) chain buffer =
      (m.gather number chain buffer).map (·.after p) id := by
  simp only [gather, liveQueue_after]
  cases m.liveQueue number with
  | error e => rfl
  | ok q =>
    dsimp only
    rw [space_after]
    split
    · rw [fail_after]; rfl
    · rfl

theorem scatter_after (chain : Vring.Chain) (data : List UInt8) :
    (m.after p).scatter (p.queue number) chain data =
      (m.scatter number chain data).map (·.after p) id := by
  simp only [scatter, liveQueue_after]
  cases m.liveQueue number with
  | error e => rfl
  | ok q =>
    dsimp only
    rw [space_after]
    split
    · rw [withRam_after, fail_after]; rfl
    · rfl

/-- Whoever holds a new virtqueue cannot tell that there was a past. -/
theorem perform_after (request : Request) :
    (m.after p).perform (p.queue number) request =
      (m.perform number request).map (·.after p) id := by
  cases request with
  | take => exact congrArg (Prod.map id Answer.chain) (takeChain_after p m number)
  | give head len =>
    exact congrArg (Prod.map id Answer.done) (returnChain_after p m number head len)
  | wants =>
    exact congrArg (fun wish => (m.after p, Answer.wish wish)) (wantsInterrupt_after p m number)
  | ask wanted =>
    exact congrArg (Prod.map id Answer.done) (askNotifications_after p m number wanted)
  | gather chain buffer =>
    exact congrArg (Prod.map id fun filled => Answer.gathered filled.1 filled.2)
      (gather_after p m number chain buffer)
  | scatter chain data =>
    exact congrArg (Prod.map id Answer.scattered) (scatter_after p m number chain data)

end Requests

end Machine

end VirtioMmio
