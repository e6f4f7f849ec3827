import VirtioMmio.Proofs.Device.Queues
import VirtioMmio.Proofs.Queue.Tables

/-!
Which queues may use indirect tables. A virtqueue takes this down when it is brought up and never
looks at the features again, so what counts is what driver and device agreed on at that moment. Main
result: `tables_as_agreed_at_bring_up`. A driver that settles the features first gets what it agreed
on; one that goes on writing features after it brought a queue up may not.
-/

namespace VirtioMmio

open Backend (Session)
open Queue (ReadsAt Registers TableChain Virtqueue path_iff_readTrail)
open Transport (Register RegisterFile)
open Vring (Chain)

namespace Device

/-! ### Queues that come up -/

theorem queueIsUp_iff (d : Device) (i : Nat) :
    d.queueIsUp i = true ↔
      ∃ r number, d.registers.queues[i]? = some r ∧ r.live = some number := by
  rw [queueIsUp]
  constructor
  · intro up
    cases found : d.registers.queues[i]? with
    | none =>
      rw [found] at up
      cases up
    | some r =>
      rw [found] at up
      obtain ⟨number, live⟩ := Option.isSome_iff_exists.mp up
      exact ⟨r, number, rfl, live⟩
  · rintro ⟨r, number, found, live⟩
    rw [found]
    exact Option.isSome_iff_exists.mpr ⟨number, live⟩

theorem queueIsUp_of_live {d d' : Device}
    (same : d'.registers.queues.map (·.live) = d.registers.queues.map (·.live)) (i : Nat) :
    d'.queueIsUp i = d.queueIsUp i := by
  have each (d : Device) :
      d.queueIsUp i = ((d.registers.queues.map (·.live))[i]?.map Option.isSome).getD false := by
    rw [queueIsUp, List.getElem?_map, Option.map_map]
    rfl
  rw [each, each, same]

/-- A reset takes all queues down. -/
theorem Happens.allDown {d d' : Device} {action : Action} (happens : d.Happens action d')
    (reset : action.isReset = true) (i : Nat) : d'.queueIsUp i = false := by
  cases happens with
  | register value r =>
    obtain ⟨rfl, zero⟩ := (Action.isReset_write value r).mp reset
    rw [queueIsUp, show d.carryOut _ .status = d.writeStatus _ from rfl, (writeStatus_blank zero).1,
      List.getElem?_map]
    cases d.registers.queues[i]? <;> rfl
  | shutdown => cases reset
  | aside elsewhere going aside =>
    rw [Action.isReset, elsewhere] at reset
    cases reset

/-- A queue that comes up is a new virtqueue, which may use tables if that is agreed on by then. -/
theorem Happens.comesUp {d d' : Device} {action : Action} (happens : d.Happens action d')
    (matched : d.Matched) {i : Nat} (down : d.queueIsUp i = false) (up : d'.queueIsUp i = true) :
    action.isReset = false ∧ ∃ r number q, d'.registers.queues[i]? = some r ∧ r.live = some number ∧
      d'.machine.queues[number]? = some q ∧ q.indirect = d.mayUseTables := by
  have noReset : action.isReset = false := by
    by_contra reset
    rw [happens.allDown (Bool.not_eq_false _ ▸ reset)] at up
    cases up
  refine ⟨noReset, ?_⟩
  -- The queue changed, so any step that leaves the numbers of all queues alone is ruled out.
  have changes (same : d'.registers.queues.map (·.live) = d.registers.queues.map (·.live)) :
      False := by
    rw [queueIsUp_of_live same, down] at up
    cases up
  cases happens with
  | register value r =>
    have reshapes := reshapes_register matched.honest noReset
    generalize d.carryOut value.toUInt32 r = d' at up changes reshapes ⊢
    cases reshapes with
    | kept queues virtqueues => exact (changes (by rw [queues])).elim
    | programmed index f frozen same queues virtqueues =>
      refine (changes ?_).elim
      rw [queues]
      exact Machine.map_modify (fun r => (same r).2) _ _
    | readied made =>
      cases made with
      | same => exact (changes rfl).elim
      | up found down' early accepted backed =>
        by_cases here : d.registers.config.queue.toNat = i
        · subst here
          have known := (List.getElem?_eq_some_iff.mp found).1
          exact ⟨_, _, _, List.getElem?_set_self known, rfl, List.getElem?_concat_length, rfl⟩
        · -- Another queue came up, so this one is as it was.
          rw [queueIsUp] at up down
          change ((d.registers.queues.set _ _)[i]?.map _).getD false = true at up
          rw [List.getElem?_set_ne here, down] at up
          cases up
  | shutdown =>
    refine (changes ?_).elim
    rw [(shutdown_stands d).1]
  | aside elsewhere going aside => exact (changes aside.live).elim

/-- A queue that is up at the end of a run was up throughout, or came up after the last reset. -/
theorem came_up_since {d : Device} (settled : d.Settled) {actions : List Action} {i : Nat}
    (up : (d.run actions).1.queueIsUp i = true) :
    (d.queueIsUp i = true ∧ ∀ action ∈ actions, action.isReset = false) ∨
      ∃ before action later, actions = before ++ action :: later ∧
        (∀ action ∈ later, action.isReset = false) ∧ (d.run before).1.queueIsUp i = false ∧
        ((d.run before).1.step action).1.queueIsUp i = true := by
  induction actions generalizing d with
  | nil => exact .inl ⟨up, by simp⟩
  | cons action later ih =>
    -- If it was up from the second state on, it came up by the first action or was up before.
    rcases ih (settled_step settled action) up with
      ⟨there, noReset⟩ | ⟨before, next, rest, split, noReset, down, comes⟩
    · cases before : d.queueIsUp i with
      | true =>
        refine .inl ⟨rfl, ?_⟩
        intro any member
        rcases List.mem_cons.mp member with rfl | among
        · by_contra reset
          rw [(step_happens settled any).allDown (Bool.not_eq_false _ ▸ reset)] at there
          cases there
        · exact noReset any among
      | false => exact .inr ⟨[], action, later, rfl, noReset, before, there⟩
    · exact .inr ⟨action :: before, next, rest, by rw [split]; rfl, noReset, down, comes⟩

/-! ### What was agreed on -/

/-- Features that are settled when a queue comes up are the ones that its virtqueue goes by. -/
theorem tables_since_bring_up {d : Device} (established : d.Established) {action : Action} {i : Nat}
    (down : d.queueIsUp i = false) (up : (d.step action).1.queueIsUp i = true)
    {later : List Action} (noReset : ∀ action ∈ later, action.isReset = false) :
    ∃ r number q, ((d.step action).1.run later).1.registers.queues[i]? = some r ∧
      r.live = some number ∧ ((d.step action).1.run later).1.machine.queues[number]? = some q ∧
      q.indirect = d.mayUseTables ∧
      (d.registers.config.status.featuresOk = true →
        q.indirect = ((d.step action).1.run later).1.mayUseTables) := by
  have happens := step_happens established.toSettled action
  obtain ⟨going, r, number, q, found, live, known, allowed⟩ :=
    happens.comesUp established.matched down up
  have stands := stands_run (established_step established action) noReset
  obtain ⟨q', known', same⟩ := stands.virtqueue known
  have isUp : r.isUp = true := by
    rw [Registers.isUp, live]
    rfl
  have allowed' : q'.indirect = d.mayUseTables := (congrArg Virtqueue.indirect same).trans allowed
  refine ⟨r, number, q', stands.registers i r found isUp, live, known', allowed', ?_⟩
  intro settled
  -- The features that count stood before the queue came up, so its own step belongs to the run.
  have whole : ∀ action' ∈ action :: later, action'.isReset = false := by
    intro action' member
    rcases List.mem_cons.mp member with rfl | among
    · exact going
    · exact noReset action' among
  have still := (advances_run established.toSettled whole).negotiated settled
  rw [allowed', mayUseTables, mayUseTables, ← still]
  rfl

/-- Whether a virtqueue may use indirect tables is what was agreed on at the moment it was brought
up; if the features were settled by then, that is what the session goes by. Every queue that is up
came up so after the last reset. A chain that ends in an indirect table is taken by a virtqueue that
may use tables and refused by any other, which fails. -/
theorem tables_as_agreed_at_bring_up {profile : Profile} {options : Options} {ram : Memory.Ram}
    {d₀ d : Device} (built : Device.new profile options ram = .ok d₀) (sound : ram.WellFormed)
    (actions : List Action) (reached : (d₀.run actions).1 = d) :
    (∀ action (i : Nat), d.queueIsUp i = false → (d.step action).1.queueIsUp i = true →
        ∀ later, (∀ action ∈ later, action.isReset = false) →
          ∃ r number q, ((d.step action).1.run later).1.registers.queues[i]? = some r ∧
            r.live = some number ∧
            ((d.step action).1.run later).1.machine.queues[number]? = some q ∧
            q.indirect = d.mayUseTables ∧
            (d.registers.config.status.featuresOk = true →
              q.indirect = ((d.step action).1.run later).1.mayUseTables)) ∧
      (∀ i, d.queueIsUp i = true → ∃ before action later, actions = before ++ action :: later ∧
        (∀ action ∈ later, action.isReset = false) ∧ (d₀.run before).1.queueIsUp i = false ∧
        ((d₀.run before).1.step action).1.queueIsUp i = true) ∧
      (∀ (n : Nat) (s : Session), d.sessions[n]? = some s → s.retired = false →
        (s.features &&& indirectFeature != 0) = d.mayUseTables) ∧
      ∀ (number : Nat) (q : Virtqueue) (head : UInt16) (chain : Chain),
        d.machine.liveQueue number = .ok q →
        q.nextHead (d.machine.space q) = .ok (some head) →
        TableChain q (d.machine.space q) head chain →
        d.machine.takeChain number =
          if q.indirect then (d.machine.modifyQueue number (·.stepAvailable), .ok (some chain))
          else (d.machine.fail number, .error .badIndirect) := by
  have established₀ := established_new built
  have established : d.Established := reached ▸ established_run established₀ actions
  have sound' : d.machine.ram.WellFormed := reached ▸ wellFormed_run built sound actions
  refine ⟨?_, ?_, ?_, ?_⟩
  · intro action i down up later noReset
    exact tables_since_bring_up established down up noReset
  · intro i up
    rw [← reached] at up
    rcases came_up_since established₀.toSettled up with ⟨there, _⟩ | since
    · -- No queue of a new device is up.
      rw [new_eq_ok built] at there
      obtain ⟨r, number, found, live⟩ := (queueIsUp_iff _ i).mp there
      cases List.eq_of_mem_replicate (List.mem_of_getElem? found)
      cases live
    · exact since
  · intro n s found live
    -- The session was given the features that the registers have held since.
    have held := established.linked.held found live
    rw [(established.linked.matching n s held found).2]
    rfl
  · intro number q head chain live offered named
    have placed := established.matched.placed_of_found (Machine.liveQueue_eq_ok live)
    exact Machine.takeChain_of_tableChain live placed sound' offered named

/-! A device that offers indirect tables, with a chain in its available ring that ends in one. The
prudent driver settles the features before it brings its queue up. -/

def tableStart : Device where
  base := 0xa000000
  registers := .new .block 256 1 (.new (version1Feature ||| indirectFeature) [1, 2, 3, 4] [])
  machine := { ram := Machine.sampleRam, dma := .unmapped 1, line := ⟨48, .nothing⟩ }

theorem tableStart_built :
    Device.new sampleProfile { sampleOptions with indirect := true } Machine.sampleRam =
      .ok tableStart := by
  rfl

def greetings : List Action :=
  driverWrites [(0x70, 1), (0x70, 3)]

def acceptTables : List Action :=
  driverWrites [(0x24, 0), (0x20, 0x10000000), (0x24, 1), (0x20, 1)]

def programQueue : List Action :=
  driverWrites [(0x30, 0), (0x38, 4), (0x80, 0x1000), (0x90, 0x1100), (0xa0, 0x1200)]

def settleFeatures : List Action :=
  driverWrites [(0x70, 11)]

def readyQueue : Action :=
  .access (.write 1) 0x44 4

def finish : List Action :=
  driverWrites [(0x70, 15)]

def dropTables : List Action :=
  driverWrites [(0x24, 0), (0x20, 0)]

def prudentSetup : List Action :=
  greetings ++ acceptTables ++ settleFeatures ++ programQueue

def prudentActions : List Action :=
  prudentSetup ++ readyQueue :: finish

def prudentDevice : Device :=
  (tableStart.run prudentSetup).1

def prudentRunning : Device :=
  (tableStart.run prudentActions).1

/-- The chain in the available ring is one for queues that may use tables, whichever queue it is. -/
theorem tableChain_sampleChain (indirect : Bool) :
    TableChain { Machine.sampleQueue with indirect } ⟨Machine.sampleRam, .unmapped 1, 0⟩ 1
      Machine.sampleChain := by
  have placed : Machine.sampleQueue.layout.Placed := Machine.broughtUp_sampleQueue.placed
  have outer : ReadsAt ⟨Machine.sampleRam, .unmapped 1, 0⟩ 0x1000 1 ⟨0x1300, 8, 1, 0⟩ := by
    unfold ReadsAt
    decide +kernel
  have last : ReadsAt ⟨Machine.sampleRam, .unmapped 1, 0⟩ 0x1000 0 ⟨0x1400, 32, 4, 0⟩ := by
    unfold ReadsAt
    decide +kernel
  constructor
  · apply (Virtqueue.chainAt_eq_ok_iff placed Machine.wellFormed_sampleRam 1 _).mp
    decide +kernel
  · refine ⟨[⟨1, ⟨0x1300, 8, 1, 0⟩⟩], ⟨0, ⟨0x1400, 32, 4, 0⟩⟩, ?_, rfl⟩
    apply (path_iff_readTrail placed _ 1 _).mpr
    constructor
    · exact .step (by decide) outer rfl rfl (.stop (by decide) last (.inl rfl))
    · intro h ends
      cases ends
      rfl

theorem prudentDevice_tables :
    (∃ r number q, ((prudentDevice.step readyQueue).1.run finish).1.registers.queues[0]? = some r ∧
        r.live = some number ∧
        ((prudentDevice.step readyQueue).1.run finish).1.machine.queues[number]? = some q ∧
        q.indirect = ((prudentDevice.step readyQueue).1.run finish).1.mayUseTables) ∧
      (∃ before action later, prudentActions = before ++ action :: later ∧
        (∀ action ∈ later, action.isReset = false) ∧ (tableStart.run before).1.queueIsUp 0 = false ∧
        ((tableStart.run before).1.step action).1.queueIsUp 0 = true) ∧
      prudentRunning.machine.takeChain 0 =
        (prudentRunning.machine.modifyQueue 0 (·.stepAvailable),
          .ok (some Machine.sampleChain)) := by
  have down : prudentDevice.queueIsUp 0 = false := by decide +kernel
  have up : (prudentDevice.step readyQueue).1.queueIsUp 0 = true := by decide +kernel
  have settled : prudentDevice.registers.config.status.featuresOk = true := by decide +kernel
  have noReset : ∀ action ∈ finish, action.isReset = false := by decide +kernel
  have isUp : prudentRunning.queueIsUp 0 = true := by decide +kernel
  have live : prudentRunning.machine.liveQueue 0 = .ok Machine.sampleQueue := by decide +kernel
  have offered : Machine.sampleQueue.nextHead (prudentRunning.machine.space Machine.sampleQueue) =
      .ok (some 1) := by
    decide +kernel
  have space : prudentRunning.machine.space Machine.sampleQueue =
      ⟨Machine.sampleRam, .unmapped 1, 0⟩ := rfl
  have named := tableChain_sampleChain true
  rw [← space] at named
  obtain ⟨comesUp, _⟩ := tables_as_agreed_at_bring_up tableStart_built Machine.wellFormed_sampleRam
    prudentSetup rfl (d := prudentDevice)
  obtain ⟨_, since, _, taken⟩ := tables_as_agreed_at_bring_up tableStart_built
    Machine.wellFormed_sampleRam prudentActions rfl (d := prudentRunning)
  refine ⟨?_, since 0 isUp, taken 0 _ 1 _ live offered named⟩
  obtain ⟨r, number, q, found, held, known, _, agreed⟩ :=
    comesUp readyQueue 0 down up finish noReset
  exact ⟨r, number, q, found, held, known, agreed settled⟩

/-! The hasty driver accepts tables, brings its queue up and then thinks better of it; the late
driver accepts them when the queue is up. In both cases the virtqueue goes by something else than
the session: the first takes a chain that was not agreed on, the second refuses one that was. -/

def hastyDevice : Device :=
  (tableStart.run (greetings ++ acceptTables ++ programQueue ++ [readyQueue] ++ dropTables ++
    settleFeatures ++ finish)).1

def lateDevice : Device :=
  (tableStart.run (greetings ++ programQueue ++ [readyQueue] ++ acceptTables ++ settleFeatures ++
    finish)).1

/-- The queues of a running device may use indirect tables if and only if the features that driver
and device agreed on say so. -/
def TablesAsNegotiated (d : Device) : Prop :=
  d.isRunning = true → ∀ (i : Nat) (r : Registers) (number : Nat) (q : Virtqueue),
    d.registers.queues[i]? = some r → r.live = some number →
    d.machine.queues[number]? = some q → q.indirect = d.mayUseTables

theorem tables_not_as_negotiated :
    (¬ hastyDevice.TablesAsNegotiated ∧ hastyDevice.mayUseTables = false ∧
        TableChain Machine.sampleQueue (hastyDevice.machine.space Machine.sampleQueue) 1
          Machine.sampleChain ∧
        (hastyDevice.machine.takeChain 0).2 = .ok (some Machine.sampleChain)) ∧
      ¬ lateDevice.TablesAsNegotiated ∧ lateDevice.mayUseTables = true ∧
        TableChain { Machine.sampleQueue with indirect := false }
          (lateDevice.machine.space Machine.sampleQueue) 1 Machine.sampleChain ∧
        (lateDevice.machine.takeChain 0).2 = .error .badIndirect := by
  have hasty : hastyDevice.machine.queues[0]? = some Machine.sampleQueue := by decide +kernel
  have late : lateDevice.machine.queues[0]? =
      some { Machine.sampleQueue with indirect := false } := by
    decide +kernel
  have space : hastyDevice.machine.space Machine.sampleQueue =
      ⟨Machine.sampleRam, .unmapped 1, 0⟩ := rfl
  have space' : lateDevice.machine.space Machine.sampleQueue =
      ⟨Machine.sampleRam, .unmapped 1, 0⟩ := rfl
  refine ⟨⟨?_, by decide +kernel, ?_, by decide +kernel⟩, ?_, by decide +kernel, ?_,
    by decide +kernel⟩
  · intro agreed
    have running : hastyDevice.isRunning = true := by decide +kernel
    have same := agreed running 0 ⟨4, true, 0x1000, 0x1100, 0x1200, some 0⟩ 0 _
      (by decide +kernel) rfl hasty
    exact absurd same (by decide +kernel)
  · rw [space]
    exact tableChain_sampleChain true
  · intro agreed
    have running : lateDevice.isRunning = true := by decide +kernel
    have same := agreed running 0 ⟨4, true, 0x1000, 0x1100, 0x1200, some 0⟩ 0 _
      (by decide +kernel) rfl late
    exact absurd same (by decide +kernel)
  · rw [space']
    exact tableChain_sampleChain false

end Device

end VirtioMmio
