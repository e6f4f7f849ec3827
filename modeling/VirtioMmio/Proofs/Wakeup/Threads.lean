import Mathlib.Algebra.Group.Nat.Defs
import VirtioMmio.Wakeup.Doorbell

/-!
Threads that share a semaphore and a doorbell. Each operation is cut into its atomic steps, and any
thread that is at the right point may take the next step, so a history is an arbitrary interleaving.
A thread that waits and finds no permit parks or gives up, and one that parks tries again later,
whether it was woken for a reason or not. Main statements: `Step.changes`, everything a step does to
either semaphore, and `Step.pending_eq`, what it does to the set of queues.
-/

namespace VirtioMmio.Wakeup

/-! ### Outcomes of one attempt -/

namespace Semaphore

theorem take_eq_ok_true {s s' : Semaphore} :
    s.take = .ok (true, s') ↔
      s.isShutDown = false ∧ 0 < s.permits ∧ s' = { s with permits := s.permits - 1 } := by
  unfold take
  cases s.isShutDown with
  | true => simp
  | false => by_cases left : 0 < s.permits <;> simp [left, eq_comm]

theorem take_eq_ok_false {s s' : Semaphore} :
    s.take = .ok (false, s') ↔ s.isShutDown = false ∧ ¬ 0 < s.permits ∧ s' = s := by
  unfold take
  cases s.isShutDown with
  | true => simp
  | false => by_cases left : 0 < s.permits <;> simp [left, eq_comm]

/-- Only a shutdown cancels an attempt, and it does so whatever permits are left. -/
theorem take_eq_error {s : Semaphore} {e : Cancelled} :
    s.take = .error e ↔ s.isShutDown = true := by
  unfold take
  cases s.isShutDown with
  | true => simp
  | false => by_cases left : 0 < s.permits <;> simp [left]

theorem toNat_signal {s : Semaphore} (running : s.isShutDown = false)
    (room : s.permits.toNat + 1 < 2 ^ 64) : s.signal.permits.toNat = s.permits.toNat + 1 := by
  rw [signal, running, if_neg Bool.false_ne_true, UInt64.toNat_add]
  exact Nat.mod_eq_of_lt room

theorem toNat_take {s s' : Semaphore} (taken : s.take = .ok (true, s')) :
    s'.permits.toNat + 1 = s.permits.toNat := by
  obtain ⟨-, left, rfl⟩ := take_eq_ok_true.mp taken
  have positive : 0 < s.permits.toNat := UInt64.lt_iff_toNat_lt.mp left
  have fits : (1 : UInt64) ≤ s.permits := UInt64.le_iff_toNat_le.mpr positive
  dsimp only
  rw [UInt64.toNat_sub_of_le _ _ fits]
  exact Nat.sub_add_cancel positive

end Semaphore

namespace Doorbell

@[simp] theorem semaphore_mark (d : Doorbell) (queue : UInt16) :
    (d.mark queue).semaphore = d.semaphore := by
  unfold mark
  split <;> rfl

end Doorbell

/-! ### Threads -/

/-- What a thread may wait at. -/
inductive Gate where
  | semaphore
  | doorbell
  deriving DecidableEq, Repr

/-- The kinds of wait: without blocking, without a deadline, and with one. -/
inductive Wait where
  | poll
  | block
  | bounded
  deriving DecidableEq, Repr

/-- A doorbell has no wait without blocking. -/
def Gate.offers : Gate → Wait → Bool
  | .doorbell, .poll => false
  | _, _ => true

/-- How far a thread is with what it does. -/
inductive Phase where
  | idle
  -- In a wait, having found no permit.
  | parked (gate : Gate) (wait : Wait)
  -- In a ring, with the queue noted and no wakeup posted yet.
  | ringing
  -- In a wait at the doorbell, with a wakeup taken and the queues not collected yet.
  | collecting
  deriving DecidableEq, Repr

/-- Where a wait goes on after it got a permit. -/
def Gate.entered : Gate → Phase
  | .semaphore => .idle
  | .doorbell => .collecting

structure World where
  semaphore : Semaphore := {}
  doorbell : Doorbell := {}
  phase : Nat → Phase := fun _ => .idle

namespace World

/-- The semaphore at a gate. -/
def gate (w : World) : Gate → Semaphore
  | .semaphore => w.semaphore
  | .doorbell => w.doorbell.semaphore

/-- One attempt to take a permit at a gate. -/
def take (w : World) : Gate → Except Cancelled (Bool × World)
  | .semaphore =>
    match w.semaphore.take with
    | .error e => .error e
    | .ok (taken, semaphore) => .ok (taken, { w with semaphore })
  | .doorbell =>
    match w.doorbell.take with
    | .error e => .error e
    | .ok (taken, doorbell) => .ok (taken, { w with doorbell })

def shutdown (w : World) : Gate → World
  | .semaphore => { w with semaphore := w.semaphore.shutdown }
  | .doorbell => { w with doorbell := w.doorbell.shutdown }

def enter (w : World) (thread : Nat) (phase : Phase) : World :=
  { w with phase := fun t => if t = thread then phase else w.phase t }

/-- A thread begins a wait, or goes on with one in which it had parked. -/
structure Ready (w : World) (thread : Nat) (gate : Gate) (wait : Wait) : Prop where
  offered : gate.offers wait = true
  free : w.phase thread = .idle ∨ w.phase thread = .parked gate wait

end World

/-- What a thread does in one step. A ring is `mark` and then `post`; a wait at the doorbell is
`attempt`, again and again until it gets a permit or ends, and then `collect`. -/
inductive Act where
  | signal
  | attempt (gate : Gate) (wait : Wait)
  | shutdown (gate : Gate)
  | mark (queue : UInt16)
  | post
  | collect
  deriving DecidableEq, Repr

inductive Answer where
  | done
  | took
  -- No permit, and the wait ends without one.
  | missed
  -- No permit, and the wait goes on.
  | parked
  | cancelled (e : Cancelled)
  | collected (mask : Queue.Mask)
  deriving DecidableEq, Repr

/-- The set that an answer returns. -/
def Answer.mask? : Answer → Option Queue.Mask
  | .collected mask => some mask
  | _ => none

/-- One atomic step of a thread, and the answer it gets. A wait that finds no permit may park unless
it does not block, and may give up if it has a deadline or does not block. -/
inductive Step (w : World) (thread : Nat) : Act → Answer → World → Prop
  | signal (idle : w.phase thread = .idle) :
    Step w thread .signal .done { w with semaphore := w.semaphore.signal }
  | took {gate : Gate} {wait : Wait} {w' : World} (ready : w.Ready thread gate wait)
    (taken : w.take gate = .ok (true, w')) :
    Step w thread (.attempt gate wait) .took (w'.enter thread gate.entered)
  | missed {gate : Gate} {wait : Wait} {w' : World} (ready : w.Ready thread gate wait)
    (taken : w.take gate = .ok (false, w')) (ends : wait ≠ .block) :
    Step w thread (.attempt gate wait) .missed (w'.enter thread .idle)
  | parked {gate : Gate} {wait : Wait} {w' : World} (ready : w.Ready thread gate wait)
    (taken : w.take gate = .ok (false, w')) (blocks : wait ≠ .poll) :
    Step w thread (.attempt gate wait) .parked (w'.enter thread (.parked gate wait))
  | cancelled {gate : Gate} {wait : Wait} {e : Cancelled} (ready : w.Ready thread gate wait)
    (taken : w.take gate = .error e) :
    Step w thread (.attempt gate wait) (.cancelled e) (w.enter thread .idle)
  | shutdown (gate : Gate) (idle : w.phase thread = .idle) :
    Step w thread (.shutdown gate) .done (w.shutdown gate)
  | mark (queue : UInt16) (idle : w.phase thread = .idle) :
    Step w thread (.mark queue) .done
      ({ w with doorbell := w.doorbell.mark queue }.enter thread .ringing)
  | post (ringing : w.phase thread = .ringing) :
    Step w thread .post .done ({ w with doorbell := w.doorbell.post }.enter thread .idle)
  | collect (collecting : w.phase thread = .collecting) :
    Step w thread .collect (.collected w.doorbell.collect.1)
      ({ w with doorbell := w.doorbell.collect.2 }.enter thread .idle)

structure Event where
  thread : Nat
  act : Act
  answer : Answer
  deriving DecidableEq, Repr

/-- What happened up to a state of the world, the latest event first. -/
inductive History : List Event → World → Prop
  | start : History [] {}
  | next {earlier : List Event} {w w' : World} {e : Event} (history : History earlier w)
    (step : Step w e.thread e.act e.answer w') : History (e :: earlier) w'

/-! ### What a step does -/

/-- What can be done to a semaphore. -/
inductive Effect where
  | signal
  | take
  | shutdown
  deriving DecidableEq, Repr

/-- What an event does to the semaphore at a gate. -/
def Event.effect? (gate : Gate) (e : Event) : Option Effect :=
  match e.act, e.answer with
  | .signal, _ => if gate = .semaphore then some .signal else none
  | .post, _ => if gate = .doorbell then some .signal else none
  | .attempt site _, .took => if gate = site then some .take else none
  | .shutdown site, _ => if gate = site then some .shutdown else none
  | _, _ => none

/-- How each effect changes a semaphore. -/
inductive Changes (s : Semaphore) : Option Effect → Semaphore → Prop
  | signal : Changes s (some .signal) s.signal
  | take {s' : Semaphore} (taken : s.take = .ok (true, s')) : Changes s (some .take) s'
  | shutdown : Changes s (some .shutdown) s.shutdown
  | nothing : Changes s none s

/-- What an act leaves of the queues that were rung. -/
def Doorbell.pendingAfter (d : Doorbell) : Act → Queue.Mask
  | .mark queue => (d.mark queue).pending
  | .collect => .empty
  | _ => d.pending

/-- An act notes a queue that has a bit. -/
def Act.Marks : Act → Nat → Prop
  | .mark queue, q => queue < 64 ∧ queue.toNat = q
  | _, _ => False

theorem Doorbell.contains_mark (d : Doorbell) (queue : UInt16) (q : Nat) :
    (d.mark queue).pending.contains q = true ↔
      (queue < 64 ∧ queue.toNat = q) ∨ d.pending.contains q = true := by
  unfold mark
  split
  next small =>
    rw [Queue.Mask.contains_insert _ _ small, Bool.or_eq_true, beq_iff_eq, or_comm, eq_comm]
    simp only [small, true_and]
  next large => simp only [large, false_and, false_or]

theorem Doorbell.contains_pendingAfter (d : Doorbell) (act : Act) (q : Nat) :
    (d.pendingAfter act).contains q = true ↔
      act ≠ .collect ∧ (act.Marks q ∨ d.pending.contains q = true) := by
  cases act with
  | mark queue =>
    exact (d.contains_mark queue q).trans ⟨fun among => ⟨by simp, among⟩, And.right⟩
  | collect =>
    have none : Queue.Mask.empty.contains q = false := by
      simp [Queue.Mask.empty, Queue.Mask.contains]
    exact ⟨fun among => absurd (none.symm.trans among) Bool.false_ne_true,
      fun both => absurd rfl both.1⟩
  | _ => exact ⟨fun among => ⟨by simp, .inr among⟩, fun both => both.2.resolve_left id⟩

namespace World

variable {w w' : World}

@[simp] theorem gate_enter (w : World) (thread : Nat) (phase : Phase) (gate : Gate) :
    (w.enter thread phase).gate gate = w.gate gate := by
  cases gate <;> rfl

theorem phase_enter_of_ne (w : World) {thread other : Nat} (phase : Phase)
    (apart : other ≠ thread) : (w.enter thread phase).phase other = w.phase other :=
  if_neg apart

theorem phase_enter_self (w : World) (thread : Nat) (phase : Phase) :
    (w.enter thread phase).phase thread = phase :=
  if_pos rfl

/-- The world with another semaphore at a gate. -/
def put (w : World) (s : Semaphore) : Gate → World
  | .semaphore => { w with semaphore := s }
  | .doorbell => { w with doorbell := { w.doorbell with semaphore := s } }

@[simp] theorem gate_put (w : World) (s : Semaphore) (gate other : Gate) :
    (w.put s gate).gate other = if other = gate then s else w.gate other := by
  cases gate <;> cases other <;> rfl

@[simp] theorem pending_put (w : World) (s : Semaphore) (gate : Gate) :
    (w.put s gate).doorbell.pending = w.doorbell.pending := by
  cases gate <;> rfl

theorem put_gate (w : World) (gate : Gate) : w.put (w.gate gate) gate = w := by
  cases gate <;> rfl

theorem shutdown_eq (w : World) (gate : Gate) :
    w.shutdown gate = w.put (w.gate gate).shutdown gate := by
  cases gate <;> rfl

/-- An attempt at a gate is one at the semaphore there. -/
theorem take_eq (w : World) (gate : Gate) :
    w.take gate =
      match (w.gate gate).take with
      | .error e => .error e
      | .ok (taken, s) => .ok (taken, w.put s gate) := by
  cases gate with
  | semaphore => rfl
  | doorbell =>
    unfold take World.gate Doorbell.take
    cases w.doorbell.semaphore.take <;> rfl

theorem take_eq_ok {gate : Gate} {taken : Bool} (took : w.take gate = .ok (taken, w')) :
    ∃ s, (w.gate gate).take = .ok (taken, s) ∧ w' = w.put s gate := by
  rw [take_eq] at took
  split at took
  · cases took
  next s attempt =>
    cases took
    exact ⟨s, attempt, rfl⟩

theorem take_eq_error_iff {gate : Gate} {e : Cancelled} :
    w.take gate = .error e ↔ (w.gate gate).isShutDown = true := by
  rw [← Semaphore.take_eq_error (e := e), take_eq]
  cases (w.gate gate).take <;> simp

/-- An attempt that finds no permit changes nothing. -/
theorem eq_of_take_false {gate : Gate} (taken : w.take gate = .ok (false, w')) : w' = w := by
  obtain ⟨s, attempt, rfl⟩ := take_eq_ok taken
  obtain ⟨-, -, rfl⟩ := Semaphore.take_eq_ok_false.mp attempt
  exact w.put_gate gate

end World

namespace Step

variable {w w' : World} {thread : Nat} {act : Act} {answer : Answer}

/-- Everything a step does to the semaphore at a gate. -/
theorem changes (step : Step w thread act answer w') (gate : Gate) :
    Changes (w.gate gate) (Event.effect? gate ⟨thread, act, answer⟩) (w'.gate gate) := by
  cases step with
  | signal =>
    cases gate with
    | semaphore => exact .signal
    | doorbell => exact .nothing
  | @took site wait w' ready taken =>
    obtain ⟨s, attempt, rfl⟩ := World.take_eq_ok taken
    rw [World.gate_enter, World.gate_put]
    unfold Event.effect?
    dsimp only
    -- Only the semaphore at this site gives up a permit.
    split
    next same =>
      subst same
      exact .take attempt
    · exact .nothing
  | missed ready taken =>
    rw [World.eq_of_take_false taken, World.gate_enter]
    exact .nothing
  | parked ready taken =>
    rw [World.eq_of_take_false taken, World.gate_enter]
    exact .nothing
  | cancelled =>
    rw [World.gate_enter]
    exact .nothing
  | shutdown site =>
    rw [World.shutdown_eq, World.gate_put]
    unfold Event.effect?
    dsimp only
    split
    next same =>
      subst same
      exact .shutdown
    · exact .nothing
  | mark queue =>
    rw [World.gate_enter]
    cases gate with
    | semaphore => exact .nothing
    -- The queue is marked before the semaphore is signalled.
    | doorbell =>
      simp only [World.gate, Doorbell.semaphore_mark]
      exact .nothing
  | post =>
    rw [World.gate_enter]
    cases gate with
    | semaphore => exact .nothing
    | doorbell => exact .signal
  | collect =>
    rw [World.gate_enter]
    cases gate with
    | semaphore => exact .nothing
    | doorbell => exact .nothing

/-- What a step does to the set of queues. -/
theorem pending_eq (step : Step w thread act answer w') :
    w'.doorbell.pending = w.doorbell.pendingAfter act := by
  cases step with
  | took ready taken =>
    obtain ⟨s, -, rfl⟩ := World.take_eq_ok taken
    exact w.pending_put s _
  | missed ready taken =>
    cases World.eq_of_take_false taken
    rfl
  | parked ready taken =>
    cases World.eq_of_take_false taken
    rfl
  | shutdown site =>
    rw [World.shutdown_eq]
    exact w.pending_put _ site
  | _ => rfl

/-- A step that collects returns the set as it was, and no other step returns one. -/
theorem mask?_answer (step : Step w thread act answer w') :
    answer.mask? = if act = .collect then some w.doorbell.pending else none := by
  cases step <;> rfl

end Step

/-! ### A thread by itself -/

namespace World

variable {w : World} {thread : Nat}

/-- The steps of a ring with nothing in between are a ring. -/
theorem ring_alone (idle : w.phase thread = .idle) (queue : UInt16) :
    ∃ w₁ w₂, Step w thread (.mark queue) .done w₁ ∧ Step w₁ thread .post .done w₂ ∧
      w₂.doorbell = w.doorbell.ring queue :=
  ⟨_, _, .mark queue idle, .post (phase_enter_self _ _ _), rfl⟩

/-- The steps of a wait with nothing in between are a wait. -/
theorem wait_alone {mask : Queue.Mask} {d : Doorbell} (idle : w.phase thread = .idle)
    (waited : w.doorbell.wait = .ok (some mask, d)) :
    ∃ w₁ w₂, Step w thread (.attempt .doorbell .block) .took w₁ ∧
      Step w₁ thread .collect (.collected mask) w₂ ∧ w₂.doorbell = d := by
  unfold Doorbell.wait at waited
  split at waited
  · cases waited
  · cases waited
  next rest attempt =>
    cases waited
    have taken : w.take .doorbell = .ok (true, { w with doorbell := rest }) := by
      rw [take, attempt]
    exact ⟨_, _, .took ⟨rfl, .inl idle⟩ taken, .collect (phase_enter_self _ _ _), rfl⟩

end World

end VirtioMmio.Wakeup
