import VirtioMmio.Device.Setup
import VirtioMmio.Proofs.Device.Progress

/-!
What a backend hears of its device. `Device.news?` says for one action which call is due, if one is;
it looks only at what the driver wrote and at the states before and after. Main result:
`hears_what_is_due`. The calls on record are the ones that were due, in order, one for one, so that
a driver that sets the device up is announced once until the next reset, no doorbell is lost or
repeated, and the backend is shut down once.
-/

namespace VirtioMmio

open Backend (BackendCall Connection)
open Transport (Register)

theorem Setup.new_of_build {s : Setup} {ram : Memory.Ram} {d : Device}
    (built : s.build ram = .ok d) : Device.new s.kind.profile s.options ram = .ok d := by
  simp only [build] at built
  split at built
  · cases built
  · exact built

/-- The call announces a driver that is done with its set-up. -/
def Backend.BackendCall.isDriverOk : BackendCall → Bool
  | .driverOk _ _ => true
  | _ => false

namespace Device

/-! ### What is due -/

/-- The device has a queue of the number, and the queue was brought up. -/
def queueIsUp (d : Device) (number : Nat) : Bool :=
  (d.registers.queues[number]?.map (·.isUp)).getD false

/-- Between the two states the driver got done with its set-up. -/
def gotDone (d d' : Device) : Bool :=
  !d.isRunning && d'.isRunning

/-- The news of an action that leads from `d` to `d'`. -/
def news? (d : Device) (action : Action) (d' : Device) : Option BackendCall :=
  if action.isShutdown then some .shutdown
  else
    match action.value? .status, action.value? .queueNotify with
    | some v, _ =>
      if v = 0 then some .reset
      else if d.gotDone d' then some d.handover
      else none
    | none, some v => if d.isRunning && d.queueIsUp v.toNat then some (.notify v.toUInt16) else none
    | none, none => none

/-- The calls that are due on the backend: the news, unless it was shut down. -/
def due (d : Device) (action : Action) (d' : Device) : List BackendCall :=
  if d.backend.isShutDown then [] else (d.news? action d').toList

/-- The calls that are due during a run, first to last. -/
def dueDuring (d : Device) : List Action → List BackendCall
  | [] => []
  | action :: later => d.due action (d.step action).1 ++ (d.step action).1.dueDuring later

theorem gotDone_same {d d' : Device} (same : d'.isRunning = d.isRunning) : d.gotDone d' = false := by
  rw [gotDone, same, Bool.not_and_self]

/-- A driver gets done once, unless it starts over. -/
theorem gotDone_trans {d d' d'' : Device} (first : d.isRunning = true → d'.isRunning = true)
    (second : d'.isRunning = true → d''.isRunning = true) :
    (d.gotDone d').toNat + (d'.gotDone d'').toNat = (d.gotDone d'').toNat := by
  simp only [gotDone]
  cases before : d.isRunning with
  | true => rw [first before]; rfl
  | false =>
    cases between : d'.isRunning with
    | true => rw [second between]; rfl
    | false => exact Nat.zero_add _

theorem due_eq_unlessShutDown {d d' : Device} {action : Action} {call : BackendCall}
    (news : d.news? action d' = some call) :
    d.due action d' = d.backend.unlessShutDown call := by
  rw [due, news]
  rfl

theorem due_eq_nil {d d' : Device} {action : Action} (news : d.news? action d' = none) :
    d.due action d' = [] := by
  rw [due, news]
  split <;> rfl

/-- Actions of the driver make news through two registers only. -/
theorem news?_register (d : Device) (value : UInt64) (r : Register) (d' : Device) :
    d.news? (.access (.write value) r.offset 4) d' =
      if r = .status then
        if value.toUInt32 = 0 then some .reset
        else if d.gotDone d' then some d.handover
        else none
      else if r = .queueNotify then
        if d.isRunning && d.queueIsUp value.toUInt32.toNat then
          some (.notify value.toUInt32.toUInt16)
        else none
      else none := by
  have going : (Action.access (.write value) r.offset 4).isShutdown = false := rfl
  rw [news?, going, Action.value?_write, Action.value?_write]
  by_cases status : r = .status
  · simp [status]
  · by_cases doorbell : r = .queueNotify
    · simp [doorbell]
    · simp [status, doorbell]

/-! ### What is told -/

theorem isLifecycle_unlessShutDown (c : Connection) {call told : BackendCall}
    (plain : call.isLifecycle = true) (member : told ∈ c.unlessShutDown call) :
    told.isLifecycle = true := by
  simp only [Connection.unlessShutDown] at member
  split at member
  · cases member
  · rw [List.mem_singleton.mp member]
    exact plain

theorem told_tellBackend (d : Device) (calls : List BackendCall) :
    (d.tellBackend calls).machine.told = d.machine.told ++ calls := by
  have all : (calls.map Backend.Call.backend).filterMap Backend.Call.backend? = calls := by
    rw [List.filterMap_map]
    exact (List.filterMap_congr fun _ _ => rfl).trans List.filterMap_some
  rw [tellBackend, modifyMachine, Machine.told_record, all]

theorem told_foldl_retireLive (m : Machine) (queues : List Queue.Registers) :
    (queues.foldl Machine.retireLive m).told = m.told := by
  obtain ⟨retired, same, _⟩ := m.foldl_retireLive_eq queues
  rw [same]
  rfl

theorem told_makeReady (d : Device) (v : UInt32) :
    (d.makeReady v).machine.told = d.machine.told := by
  obtain ⟨queues, virtqueues, same⟩ := d.makeReady_eq v
  rw [same]
  rfl

theorem told_acknowledge (d : Device) (v : UInt32) :
    (d.acknowledge v).machine.told = d.machine.told := by
  simp only [acknowledge]
  split
  · rfl
  · exact Machine.told_clearLine _ _

theorem told_powerOn (d : Device) : d.powerOn.machine.told = d.machine.told := by
  rw [powerOn_eq]
  exact (Machine.told_lowerLine _).trans (told_foldl_retireLive _ _)

theorem told_deliver (d : Device) :
    d.deliver.machine.told = d.machine.told ++ d.backend.unlessShutDown d.handover := by
  rw [deliver_eq]
  exact told_tellBackend d _

theorem told_shutdown (d : Device) :
    d.shutdown.machine.told = d.machine.told ++ d.backend.unlessShutDown .shutdown := by
  rw [shutdown_eq]
  refine (told_tellBackend { d with
    machine := d.registers.queues.foldl Machine.retireLive d.machine } _).trans ?_
  rw [told_foldl_retireLive]
  rfl

/-- A doorbell is passed on if the driver is done and the queue is there and up; a number beyond 16
bits names no queue. -/
theorem told_ring {d : Device} (settled : d.Settled) (v : UInt32) :
    (d.ring v).machine.told = d.machine.told ++
      if d.isRunning && d.queueIsUp v.toNat then d.backend.notify v.toUInt16 else [] := by
  simp only [ring]
  split
  next known =>
    have few : d.registers.queues.length ≤ 64 := settled.few
    -- The number was compared as it was written and is passed on in 16 bits.
    have number : v.toUInt16.toNat = v.toNat := by
      rw [UInt32.toNat_toUInt16]
      omega
    have gate : (d.registers.config.status.driverOk &&
        (d.registers.queues[v.toUInt16.toNat]?.map (·.isUp)).getD false) =
          (d.isRunning && d.queueIsUp v.toNat) := by
      rw [number]
      rfl
    simp only [notify]
    rw [gate]
    split
    · exact told_tellBackend d _
    · exact (List.append_nil _).symm
  next unknown =>
    have down : d.queueIsUp v.toNat = false := by
      rw [queueIsUp, List.getElem?_eq_none (Nat.le_of_not_lt unknown)]
      rfl
    rw [down, Bool.and_false]
    exact (List.append_nil _).symm

/-- A status write makes news of a reset or of a driver that just got done, and of nothing else. -/
theorem told_writeStatus {d : Device} (prompt : d.Prompt) (v : UInt32) :
    (d.writeStatus v).machine.told = d.machine.told ++
      if v = 0 then d.backend.reset
      else if d.gotDone (d.writeStatus v) then d.backend.unlessShutDown d.handover
      else [] := by
  have written := d.statusWritten v
  generalize d.writeStatus v = d' at written ⊢
  cases written with
  | reset zero =>
    rw [if_pos zero, told_tellBackend, told_powerOn]
  | rejected nonzero =>
    rw [if_neg nonzero, gotDone_same rfl, if_neg Bool.false_ne_true, List.append_nil]
  | @moved status nonzero follows still =>
    -- Had the driver just got done, the device would have been handed over.
    have same : (d.withConfig (d.registers.config.settle status)).isRunning = d.isRunning :=
      still prompt
    rw [if_neg nonzero, gotDone_same same, if_neg Bool.false_ne_true, List.append_nil]
    rfl
  | @started status nonzero follows running before untold =>
    have done : d.gotDone (d.withConfig (d.registers.config.settle status)).deliver = true := by
      rw [gotDone, before, deliver_eq]
      exact running
    -- Settling the features drops nothing that both sides had agreed on.
    have same : (d.withConfig (d.registers.config.settle status)).handover = d.handover :=
      congrArg (BackendCall.driverOk · _) (d.registers.config.negotiated_settle status)
    rw [if_neg nonzero, done, if_pos rfl, told_deliver, same]
    rfl

/-- A register write tells the backend what is due, and nothing else. -/
theorem told_carryOut {d : Device} (settled : d.Settled) (prompt : d.Prompt) (value : UInt64)
    (r : Register) :
    (d.carryOut value.toUInt32 r).machine.told = d.machine.told ++
      d.due (.access (.write value) r.offset 4) (d.carryOut value.toUInt32 r) := by
  -- Most registers tell the backend nothing, and make no news either.
  have none (other : r ≠ .status ∧ r ≠ .queueNotify)
      (same : (d.carryOut value.toUInt32 r).machine.told = d.machine.told) :
      (d.carryOut value.toUInt32 r).machine.told = d.machine.told ++
        d.due (.access (.write value) r.offset 4) (d.carryOut value.toUInt32 r) := by
    have news := d.news?_register value r (d.carryOut value.toUInt32 r)
    rw [if_neg other.1, if_neg other.2] at news
    rw [due_eq_nil news, same, List.append_nil]
  cases r with
  | status =>
    have news := d.news?_register value .status (d.carryOut value.toUInt32 .status)
    rw [if_pos rfl] at news
    refine (told_writeStatus prompt value.toUInt32).trans (congrArg _ ?_)
    by_cases zero : value.toUInt32 = 0
    · rw [if_pos zero] at news ⊢
      exact (due_eq_unlessShutDown news).symm
    · rw [if_neg zero] at news ⊢
      by_cases started : d.gotDone (d.writeStatus value.toUInt32) = true
      · rw [if_pos started]
        exact (due_eq_unlessShutDown (news.trans (if_pos started))).symm
      · rw [if_neg started]
        exact (due_eq_nil (news.trans (if_neg started))).symm
  | queueNotify =>
    have news := d.news?_register value .queueNotify (d.carryOut value.toUInt32 .queueNotify)
    rw [if_neg (by decide), if_pos rfl] at news
    refine (told_ring settled value.toUInt32).trans (congrArg _ ?_)
    split
    next passed =>
      rw [if_pos passed] at news
      exact (due_eq_unlessShutDown news).symm
    next ignored =>
      rw [if_neg ignored] at news
      exact (due_eq_nil news).symm
  | queueReady => exact none (by decide) (told_makeReady d _)
  | interruptAcknowledge => exact none (by decide) (told_acknowledge d _)
  | queueAddress ring half => exact none ⟨nofun, nofun⟩ rfl
  | _ => exact none (by decide) rfl

/-! ### One action -/

theorem isLifecycle_news? {d d' : Device} {action : Action} {call : BackendCall}
    (news : d.news? action d' = some call) : call.isLifecycle = true := by
  rw [news?] at news
  split at news
  · cases news
    rfl
  · split at news
    · split at news
      · cases news
        rfl
      · split at news <;> cases news
        rfl
    · split at news <;> cases news
      rfl
    · cases news

theorem isLifecycle_due {d d' : Device} {action : Action} {call : BackendCall}
    (due : call ∈ d.due action d') : call.isLifecycle = true := by
  rw [Device.due] at due
  split at due
  · cases due
  · exact isLifecycle_news? (Option.mem_toList.mp due)

namespace Happens

variable {d d' : Device} {action : Action}

theorem heard (happens : d.Happens action d') (settled : d.Settled) (prompt : d.Prompt) :
    d'.machine.heard = d.machine.heard ++ d.due action d' := by
  cases happens with
  | register value r =>
    exact Machine.heard_append (told_carryOut settled prompt value r) fun _ => isLifecycle_due
  | shutdown =>
    refine Machine.heard_append ?_ fun _ => isLifecycle_due
    rw [due_eq_unlessShutDown rfl, told_shutdown]
  | aside elsewhere going aside =>
    have news : d.news? action d' = none := by
      rw [news?, Action.isShutdown_eq_false going, elsewhere, elsewhere]
      rfl
    rw [due_eq_nil news, aside.heard, List.append_nil]

/-- Only a status write can set the driver-ok bit or take it away. -/
theorem isRunning (happens : d.Happens action d') (noStatus : action.value? .status = none) :
    d'.isRunning = d.isRunning := by
  cases happens with
  | register value r =>
    have other : r ≠ .status := by
      rintro rfl
      rw [Action.value?_write, if_pos rfl] at noStatus
      cases noStatus
    rw [Device.isRunning, config_carryOut, Config.State.status_write _ _ other]
    rfl
  | shutdown =>
    rw [shutdown_eq]
    rfl
  | aside elsewhere going aside =>
    obtain ⟨block, registers⟩ := aside.registers
    rw [Device.isRunning, registers]
    rfl

/-- Without a reset, the news is an announcement if and only if the driver got done. -/
theorem announces (happens : d.Happens action d') (noReset : action.isReset = false) :
    (d.news? action d').any BackendCall.isDriverOk = d.gotDone d' := by
  cases status : action.value? .status with
  | none =>
    rw [gotDone_same (happens.isRunning status), news?, status]
    split
    · rfl
    · split
      next found => cases found
      · split <;> rfl
      · rfl
  | some v =>
    have nonzero : v ≠ 0 := by
      rintro rfl
      rw [Action.isReset, status] at noReset
      cases noReset
    have going : action ≠ .shutdown := by
      rintro rfl
      cases status
    rw [news?, Action.isShutdown_eq_false going, status, if_neg Bool.false_ne_true]
    dsimp only
    rw [if_neg nonzero]
    cases d.gotDone d' <;> rfl

end Happens

/-! ### Counting -/

theorem countP_due (d d' : Device) (action : Action) (p : BackendCall → Bool) :
    (d.due action d').countP p = (!d.backend.isShutDown && (d.news? action d').any p).toNat := by
  rw [due]
  cases d.backend.isShutDown with
  | true => rfl
  | false =>
    cases d.news? action d' with
    | none => rfl
    | some call => cases told : p call <;> simp [told]

/-- The news is a shutdown if and only if the action is one. -/
theorem shutdown_news (d d' : Device) (action : Action) :
    (d.news? action d').any (· == .shutdown) = action.isShutdown := by
  rw [news?]
  cases action.isShutdown with
  | true => rfl
  | false =>
    rw [if_neg Bool.false_ne_true]
    split
    · split
      · rfl
      · split <;> rfl
    · split <;> rfl
    · rfl

/-! ### Runs -/

theorem heard_step {d : Device} (regular : d.Regular) (action : Action) :
    (d.step action).1.machine.heard = d.machine.heard ++ d.due action (d.step action).1 :=
  (step_happens regular.toSettled action).heard regular.toSettled regular.prompt

theorem heard_run {d : Device} (regular : d.Regular) (actions : List Action) :
    (d.run actions).1.machine.heard = d.machine.heard ++ d.dueDuring actions := by
  induction actions generalizing d with
  | nil => exact (List.append_nil _).symm
  | cons action later ih =>
    rw [dueDuring, ← List.append_assoc, ← heard_step regular]
    exact ih (regular_step regular action)

/-- A shutdown is due the first time that the host takes the device down. -/
theorem count_shutdown_dueDuring {d : Device} (settled : d.Settled) (actions : List Action) :
    (d.dueDuring actions).count .shutdown =
      (!d.backend.isShutDown && actions.any Action.isShutdown).toNat := by
  induction actions generalizing d with
  | nil => exact congrArg Bool.toNat (Bool.and_false _).symm
  | cons action later ih =>
    rw [dueDuring, List.count_append, ih (settled_step settled action), isShutDown_step settled,
      List.count, countP_due, shutdown_news, List.any_cons]
    cases d.backend.isShutDown <;> cases action.isShutdown <;> cases later.any Action.isShutdown <;>
      rfl

/-- Without a reset, an announcement is due if and only if the driver got done, as long as the
backend listens; one that was shut down may miss it. -/
theorem countP_dueDuring {d : Device} (settled : d.Settled) {actions : List Action}
    (noReset : ∀ action ∈ actions, action.isReset = false) :
    (d.dueDuring actions).countP BackendCall.isDriverOk ≤ (d.gotDone (d.run actions).1).toNat ∧
      ((d.run actions).1.backend.isShutDown = false →
        (d.dueDuring actions).countP BackendCall.isDriverOk =
          (d.gotDone (d.run actions).1).toNat) := by
  induction actions generalizing d with
  | nil => exact ⟨Nat.zero_le _, fun _ => congrArg Bool.toNat (Bool.not_and_self _).symm⟩
  | cons action later ih =>
    have here := noReset action List.mem_cons_self
    have there : ∀ action ∈ later, action.isReset = false :=
      fun action member => noReset action (List.mem_cons_of_mem _ member)
    have settled' := settled_step settled action
    obtain ⟨most, always⟩ := ih settled' there
    have first := (step_happens settled action).announces here
    have whole : ((d.step action).1.run later).1 = (d.run (action :: later)).1 := rfl
    -- The driver gets done in the first action or later, but not in both.
    have once := gotDone_trans
      (Config.Status.driverOk_of_includes (advances_step settled here).includes)
      (Config.Status.driverOk_of_includes (advances_run settled' there).includes)
    rw [whole] at most always once
    rw [dueDuring, List.countP_append, countP_due, first]
    constructor
    · refine Nat.le_trans (Nat.add_le_add ?_ most) (Nat.le_of_eq once)
      cases d.backend.isShutDown with
      | true => exact Nat.zero_le _
      | false => exact Nat.le_refl _
    · intro listens
      -- A backend that is not shut down at the end was never shut down before.
      have before : d.backend.isShutDown = false := by
        rw [← whole, isShutDown_run settled', isShutDown_step settled] at listens
        simp only [Bool.or_eq_false_iff] at listens
        exact listens.1.1
      rw [always listens, before]
      exact once

/-- What a backend hears is what is due: during a run the calls that were due on each action, in
order, and on the next action at most one more. It is shut down once, however often the host takes
the device down, and until the next reset it hears of a driver that is done at most once: if and
only if the driver got done, as long as the backend was not shut down. -/
theorem hears_what_is_due {setup : Setup} {ram : Memory.Ram} {d₀ d : Device}
    (built : setup.build ram = .ok d₀) (actions : List Action) (reached : (d₀.run actions).1 = d) :
    d.backend.isShutDown = actions.any Action.isShutdown ∧
      d.machine.heard = d₀.dueDuring actions ∧
      d.machine.heard.count .shutdown = (actions.any Action.isShutdown).toNat ∧
      (∀ action, (d.step action).1.machine.heard =
        d.machine.heard ++ d.due action (d.step action).1) ∧
      ∀ later, (∀ action ∈ later, action.isReset = false) →
        (d.run later).1.machine.heard = d.machine.heard ++ d.dueDuring later ∧
        (d.dueDuring later).countP BackendCall.isDriverOk ≤ (d.gotDone (d.run later).1).toNat ∧
        ((d.run later).1.backend.isShutDown = false →
          (d.dueDuring later).countP BackendCall.isDriverOk =
            (d.gotDone (d.run later).1).toNat) := by
  have built' := Setup.new_of_build built
  have regular₀ := regular_new built'
  have regular : d.Regular := reached ▸ regular_run regular₀ actions
  have silent : d₀.machine.heard = [] := by
    rw [new_eq_ok built']
    rfl
  have up : d₀.backend.isShutDown = false := by
    rw [new_eq_ok built']
  have record : d.machine.heard = d₀.dueDuring actions := by
    rw [← reached, heard_run regular₀, silent, List.nil_append]
  refine ⟨?_, record, ?_, heard_step regular, fun later noReset => ⟨heard_run regular later, ?_⟩⟩
  · rw [← reached, isShutDown_run regular₀.toSettled, up, Bool.false_or]
  · rw [record, count_shutdown_dueDuring regular₀.toSettled, up, Bool.not_false, Bool.true_and]
  · exact countP_dueDuring regular.toSettled noReset

/-! A console whose driver sets up the first of two queues. It rings for both, before it is done and
afterwards; then the device is taken down twice and reset in between. -/

def consoleSetup : Setup where
  slot := ⟨0xa000000, 0x200, 48⟩
  kind := .console ⟨none⟩

def consoleStart : Device where
  base := 0xa000000
  registers := .new .console 256 2 (.new version1Feature [0, 0, 0, 0, 1, 0, 0, 0, 0, 0, 0, 0] [])
  machine := { ram := Machine.sampleRam, dma := .unmapped 2, line := ⟨48, .nothing⟩ }

theorem consoleStart_built : consoleSetup.build Machine.sampleRam = .ok consoleStart := by
  rfl

def consoleActions : List Action :=
  ([(0x70, 1), (0x70, 3), (0x24, 1), (0x20, 1), (0x70, 11), (0x30, 0), (0x38, 4), (0x80, 0x1000),
      (0x90, 0x1100), (0xa0, 0x1200), (0x44, 1), (0x50, 0), (0x70, 15), (0x50, 0), (0x50, 1),
      (0x50, 0), (0x70, 0)].map fun (offset, value) => .access (.write value) offset 4) ++
    [.shutdown, .access (.write 0) 0x70 4, .shutdown]

theorem consoleActions_heard :
    (consoleStart.run consoleActions).1.machine.heard =
        [.driverOk 0x100000000 [some 0, none], .notify 0, .notify 0, .reset, .shutdown] ∧
      (consoleStart.run consoleActions).1.machine.heard.count .shutdown = 1 ∧
      (consoleStart.dueDuring (consoleActions.take 16)).countP BackendCall.isDriverOk = 1 := by
  have due : consoleStart.dueDuring consoleActions =
      [.driverOk 0x100000000 [some 0, none], .notify 0, .notify 0, .reset, .shutdown] := by
    decide +kernel
  have noReset : ∀ action ∈ consoleActions.take 16, action.isReset = false := by
    decide +kernel
  have listens : (consoleStart.run (consoleActions.take 16)).1.backend.isShutDown = false := by
    decide +kernel
  have gotDone : consoleStart.gotDone (consoleStart.run (consoleActions.take 16)).1 = true := by
    decide +kernel
  obtain ⟨_, record, count, _⟩ :=
    hears_what_is_due consoleStart_built consoleActions rfl (d := (consoleStart.run consoleActions).1)
  obtain ⟨_, _, _, _, later⟩ := hears_what_is_due consoleStart_built [] rfl (d := consoleStart)
  obtain ⟨_, _, announced⟩ := later (consoleActions.take 16) noReset
  refine ⟨record.trans due, count, (announced listens).trans ?_⟩
  rw [gotDone]
  rfl

end Device

end VirtioMmio
