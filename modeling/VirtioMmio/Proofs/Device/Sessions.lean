import VirtioMmio.Proofs.Device.Lifecycle

/-!
Sessions and what becomes of them. A backend may keep the numbers of a session and its virtqueues
for as long as it likes. `Linked` ties them together: all sessions but the current one are retired,
each with its virtqueues. Main result: `stale_handles_inert`. A session ends, once and for all, when
the driver resets the device or the host takes it down, and from then on nothing done with its
numbers has any effect.
-/

namespace VirtioMmio

open Backend (BackendCall Session)
open Config (State)
open Queue (Registers Virtqueue)
open Transport (Register RegisterFile)

/-- The session of the backend ends with the action. -/
def Action.endsSession (action : Action) : Bool :=
  action.isReset || action.isShutdown

/-- The session that a call hands to the backend. -/
def Backend.BackendCall.session? : BackendCall → Option Session
  | .driverOk features queues => some { features, queues }
  | _ => none

/-- The session as it was when the backend got it. -/
def Backend.Session.asHanded (s : Session) : Session :=
  { s with retired := false }

namespace Device

/-- Ending the session retires it, if there is one, and no other. -/
theorem getElem?_endSession (d : Device) (n : Nat) :
    d.endSession.sessions[n]? =
      d.sessions[n]?.map fun s => { s with retired := s.retired || d.session == some n } := by
  have same (s : Session) : { s with retired := s.retired || false } = s := by
    rw [Bool.or_false]
  simp only [endSession]
  cases d.session with
  | none =>
    cases d.sessions[n]? with
    | none => rfl
    | some s => exact congrArg some (same s).symm
  | some current =>
    simp only [List.getElem?_modify]
    cases d.sessions[n]? with
    | none => rfl
    | some s =>
      by_cases held : current = n
      · simp [held]
      · have other : (current == n) = false := beq_false_of_ne held
        simp [held, other]

/-! ### The current session -/

/-- How sessions, virtqueues and registers hang together. -/
structure Linked (d : Device) : Prop where
  /-- All sessions but the current one are retired. -/
  current : ∀ n s, d.sessions[n]? = some s → s.retired = !(d.session == some n)
  /-- The current session shows the queues and the features of a running device. -/
  matching : ∀ n s, d.session = some n → d.sessions[n]? = some s →
    s.queues = d.registers.queues.map (·.live) ∧ s.features = d.registers.config.negotiated
  running : ∀ n, d.session = some n → d.isRunning = true
  /-- The virtqueues of a session are retired together with it. -/
  handles : ∀ s ∈ d.sessions, ∀ number, some number ∈ s.queues →
    d.machine.retired? number = some s.retired
  /-- Queues that are up are not retired, as long as the device is not taken down. -/
  fresh : d.backend.isShutDown = false → ∀ number,
    some number ∈ d.registers.queues.map (·.live) → d.machine.retired? number = some false

theorem Linked.noSession {d : Device} (linked : d.Linked) (early : d.isRunning = false) :
    d.session = none := by
  cases held : d.session with
  | none => rfl
  | some n =>
    rw [linked.running n held] at early
    cases early

/-- A session that is not retired is the current one. -/
theorem Linked.held {d : Device} (linked : d.Linked) {n : Nat} {s : Session}
    (found : d.sessions[n]? = some s) (live : s.retired = false) : d.session = some n := by
  have current := linked.current n s found
  rw [live] at current
  simpa using current.symm

/-- The session that ends is the only one that was not retired before. -/
theorem Linked.getElem?_endSession {d : Device} (linked : d.Linked) {n : Nat} {s : Session}
    (found : d.sessions[n]? = some s) :
    d.endSession.sessions[n]? = some { s with retired := true } := by
  rw [Device.getElem?_endSession, found, Option.map_some, linked.current n s found, Bool.not_or_self]

/-- Settled features stand still, so what does not touch sessions and virtqueues keeps them tied to
the registers. -/
theorem Linked.undisturbed {d d' : Device} (linked : d.Linked) (sound : d.registers.config.Sound)
    (undisturbed : Undisturbed d d')
    (advances : State.Advances d.registers.config d'.registers.config) : d'.Linked where
  current := by
    rw [undisturbed.sessions, undisturbed.session]
    exact linked.current
  matching n s held found := by
    rw [undisturbed.session] at held
    rw [undisturbed.sessions] at found
    obtain ⟨queues, features⟩ := linked.matching n s held found
    have settled := sound.featuresOk (linked.running n held)
    exact ⟨queues.trans undisturbed.live.symm, features.trans (advances.negotiated settled).symm⟩
  running n held := by
    rw [undisturbed.session] at held
    exact Config.Status.driverOk_of_includes advances.includes (linked.running n held)
  handles s member number listed := by
    rw [undisturbed.sessions] at member
    rw [Machine.retired?_of_lasting undisturbed.virtqueues]
    exact linked.handles s member number listed
  fresh listens number listed := by
    rw [undisturbed.backend] at listens
    rw [undisturbed.live] at listed
    rw [Machine.retired?_of_lasting undisturbed.virtqueues]
    exact linked.fresh listens number listed

/-- The end of the session retires its virtqueues with it, since they are those that are up. -/
theorem Linked.ended {d d' : Device} (linked : d.Linked) (session : d'.session = none)
    (sessions : d'.sessions = d.endSession.sessions)
    (queues : d'.machine.queues = (d.registers.queues.foldl Machine.retireLive d.machine).queues)
    (fresh : d'.backend.isShutDown = false → ∀ number,
      some number ∉ d'.registers.queues.map (·.live)) :
    d'.Linked where
  current n s found := by
    rw [sessions, Device.getElem?_endSession] at found
    obtain ⟨old, before, rfl⟩ := Option.map_eq_some_iff.mp found
    rw [session, linked.current n old before]
    cases d.session == some n <;> rfl
  matching n s held := by
    rw [session] at held
    cases held
  running n held := by
    rw [session] at held
    cases held
  handles s member number listed := by
    obtain ⟨n, found⟩ := List.getElem?_of_mem member
    rw [sessions, Device.getElem?_endSession] at found
    obtain ⟨old, before, rfl⟩ := Option.map_eq_some_iff.mp found
    have flag := linked.handles old (List.mem_of_getElem? before) number listed
    have same : d'.machine.retired? number =
        (d.registers.queues.foldl Machine.retireLive d.machine).retired? number := by
      rw [Machine.retired?, Machine.retired?, queues]
    rw [same, Machine.retired?_foldl_retireLive, flag, Option.map_some]
    -- The virtqueues of the current session are those that are up, and so are retired now; those of
    -- any other session were retired before.
    by_cases held : d.session = some n
    · have up : (d.registers.queues.map (·.live)).contains (some number) = true := by
        rw [← (linked.matching n old held before).1]
        exact List.contains_iff_mem.mpr listed
      rw [up, held]
      simp
    · have ended : old.retired = true := by
        rw [linked.current n old before]
        simp [held]
      rw [ended]
      rfl
  fresh listens number listed := absurd listed (fresh listens number)

/-! ### What happens to sessions -/

/-- A queue that is brought up becomes a virtqueue of its own, which no session has yet. -/
theorem Linked.bringUpQueue {d : Device} (linked : d.Linked) (sound : d.registers.config.Sound)
    (index : UInt16) : (d.bringUpQueue index).Linked := by
  have up := d.bringsUp index
  generalize d.bringUpQueue index = d' at up ⊢
  cases up with
  | absent none => exact linked
  | already found up => exact linked
  | @refused r found down =>
    have live : (d.registers.queues.set index.toNat r.unmarkReady).map (·.live) =
        d.registers.queues.map (·.live) := by
      obtain ⟨known, rfl⟩ := List.getElem?_eq_some_iff.mp found
      have there : index.toNat < (d.registers.queues.map (·.live)).length := by
        rw [List.length_map]
        exact known
      have same := List.set_getElem_self there
      rw [List.getElem_map] at same
      rw [List.map_set]
      exact same
    exact linked.undisturbed sound ⟨⟨rfl, rfl, rfl, rfl⟩, live, rfl⟩ (.refl _)
  | @done r layout found down early accepted backed =>
    -- The driver is not done yet, so there is no session that could show other queues.
    have idle := linked.noSession early
    refine ⟨linked.current, ?_, ?_, ?_, ?_⟩
    · intro n s held
      rw [show d.session = some n from held] at idle
      cases idle
    · intro n held
      rw [show d.session = some n from held] at idle
      cases idle
    · intro s member number listed
      exact Machine.retired?_append (linked.handles s member number listed) _
    · intro listens number listed
      simp only [withQueue, List.map_set] at listed
      rcases List.mem_or_eq_of_mem_set listed with old | new
      · exact Machine.retired?_append (linked.fresh listens number old) _
      · cases new
        exact Machine.retired?_append_new d.machine _

/-- An entry of a list with one more entry is an old one or the new one. -/
theorem getElem?_snoc {α : Type} {list : List α} {x y : α} {n : Nat}
    (found : (list ++ [x])[n]? = some y) :
    (list[n]? = some y ∧ n < list.length) ∨ (n = list.length ∧ y = x) := by
  rcases Nat.lt_trichotomy n list.length with old | new | beyond
  · rw [List.getElem?_append_left old] at found
    exact .inl ⟨found, old⟩
  · rw [new, List.getElem?_concat_length] at found
    exact .inr ⟨new, (Option.some.inj found).symm⟩
  · have short : (list ++ [x]).length ≤ n := by
      rw [List.length_append]
      exact beyond
    rw [List.getElem?_eq_none short] at found
    cases found

/-- The session that starts shows what the registers hold, and is the only one that is not retired.
-/
theorem Linked.deliver {d : Device} (linked : d.Linked) (idle : d.session = none)
    (running : d.isRunning = true) : d.deliver.Linked := by
  rw [deliver_eq]
  cases down : d.backend.isShutDown with
  | true =>
    simp only [if_true]
    exact ⟨linked.current, linked.matching, linked.running, linked.handles, linked.fresh⟩
  | false =>
    simp only [Bool.false_eq_true, if_false]
    refine ⟨?_, ?_, ?_, ?_, linked.fresh⟩
    · intro n s found
      -- No session was current before, so all the old ones are retired.
      show s.retired = !(some d.sessions.length == some n)
      rcases getElem?_snoc found with ⟨old, less⟩ | ⟨rfl, rfl⟩
      · have ended : s.retired = true := by
          rw [linked.current n s old, idle]
          rfl
        have apart : d.sessions.length ≠ n := by omega
        simp [ended, apart]
      · simp [nextSession]
    · intro n s held found
      cases held
      rcases getElem?_snoc found with ⟨old, less⟩ | ⟨_, rfl⟩
      · exact absurd less (Nat.lt_irrefl _)
      · exact ⟨rfl, rfl⟩
    · intro n held
      exact running
    · intro s member number listed
      obtain ⟨n, found⟩ := List.getElem?_of_mem member
      rcases getElem?_snoc found with ⟨old, _⟩ | ⟨_, rfl⟩
      · exact linked.handles s (List.mem_of_getElem? old) number listed
      · exact linked.fresh down number listed

theorem Linked.writeStatus {d : Device} (linked : d.Linked) (sound : d.registers.config.Sound)
    (v : UInt32) : (d.writeStatus v).Linked := by
  have written := d.statusWritten v
  generalize d.writeStatus v = d' at written ⊢
  cases written with
  | reset zero =>
    rw [powerOn_eq]
    refine linked.ended rfl rfl rfl ?_
    intro _ number listed
    simp [tellBackend, modifyMachine, Registers.blank] at listed
  | rejected nonzero => exact linked
  | moved nonzero follows still =>
    exact linked.undisturbed sound ⟨⟨rfl, rfl, rfl, rfl⟩, rfl, rfl⟩ (State.advances_settle follows)
  | @started status nonzero follows running before untold =>
    have moved : (d.withConfig (d.registers.config.settle status)).Linked :=
      linked.undisturbed sound ⟨⟨rfl, rfl, rfl, rfl⟩, rfl, rfl⟩ (State.advances_settle follows)
    exact moved.deliver (linked.noSession before) running

theorem Linked.shutdown {d : Device} (linked : d.Linked) : d.shutdown.Linked := by
  rw [shutdown_eq]
  refine linked.ended rfl rfl rfl ?_
  intro listens
  cases listens

theorem Happens.linked {d d' : Device} {action : Action} (happens : d.Happens action d')
    (sound : d.registers.config.Sound) (linked : d.Linked) : d'.Linked := by
  cases happens with
  | register value r =>
    by_cases status : r = .status
    · rw [status]
      exact linked.writeStatus sound _
    · by_cases ready : r = .queueReady
      · rw [ready]
        simp only [carryOut, makeReady]
        split
        · exact linked
        · have marked := undisturbed_modifySelected d (f := Registers.markReady) fun _ => rfl
          exact (linked.undisturbed sound marked (.refl _)).bringUpQueue sound _
      · refine linked.undisturbed sound (undisturbed_carryOut d _ status ready) ?_
        rw [config_carryOut]
        exact State.advances_write _ _ r fun same => absurd same status
  | shutdown => exact linked.shutdown
  | aside elsewhere going aside =>
    obtain ⟨block, registers⟩ := aside.registers
    refine linked.undisturbed sound aside.toUndisturbed ?_
    rw [registers]
    exact .of_same rfl rfl rfl

/-! ### What becomes of a session -/

/-- A session is retired by an action that ends it, and otherwise stays as it is; a session that was
not there before is not retired. -/
structure Passes (d : Device) (ends : Bool) (d' : Device) : Prop where
  kept : ∀ (n : Nat) (s : Session), d.sessions[n]? = some s →
    d'.sessions[n]? = some { s with retired := s.retired || ends }
  begun : ∀ (n : Nat) (s : Session), d.sessions[n]? = none → d'.sessions[n]? = some s →
    s.retired = false

namespace Passes

theorem of_same {d d' : Device} (same : d'.sessions = d.sessions) : Passes d false d' where
  kept n s found := by
    rw [same, Bool.or_false]
    exact found
  begun n s absent found := by
    rw [same, absent] at found
    cases found

theorem of_ended {d d' : Device} (linked : d.Linked) (same : d'.sessions = d.endSession.sessions) :
    Passes d true d' where
  kept n s found := by
    rw [same, linked.getElem?_endSession found, Bool.or_true]
  begun n s absent found := by
    rw [same, getElem?_endSession, absent] at found
    cases found

theorem deliver (d : Device) : Passes d false d.deliver := by
  by_cases down : d.backend.isShutDown = true
  · refine of_same ?_
    rw [deliver_eq]
    exact if_pos down
  · have sessions : d.deliver.sessions = d.sessions ++ [d.nextSession] := by
      rw [deliver_eq]
      exact if_neg down
    refine ⟨fun n s found => ?_, fun n s absent found => ?_⟩
    · have old := (List.getElem?_eq_some_iff.mp found).1
      rw [sessions, List.getElem?_append_left old, Bool.or_false]
      exact found
    · rw [sessions] at found
      rcases getElem?_snoc found with ⟨old, _⟩ | ⟨_, rfl⟩
      · rw [absent] at old
        cases old
      · rfl

end Passes

theorem passes_writeStatus {d : Device} (linked : d.Linked) (v : UInt32) :
    Passes d (v == 0) (d.writeStatus v) := by
  have written := d.statusWritten v
  generalize d.writeStatus v = d' at written ⊢
  have going (nonzero : v ≠ 0) : (v == 0) = false := beq_false_of_ne nonzero
  cases written with
  | reset zero =>
    rw [zero]
    refine .of_ended linked ?_
    rw [powerOn_eq]
    rfl
  | rejected nonzero =>
    rw [going nonzero]
    exact .of_same rfl
  | moved nonzero follows still =>
    rw [going nonzero]
    exact .of_same rfl
  | @started status nonzero follows running before untold =>
    rw [going nonzero]
    have begun := Passes.deliver (d.withConfig (d.registers.config.settle status))
    exact ⟨begun.kept, begun.begun⟩

theorem Happens.passes {d d' : Device} {action : Action} (happens : d.Happens action d')
    (linked : d.Linked) : Passes d action.endsSession d' := by
  cases happens with
  | register value r =>
    by_cases status : r = .status
    · have ends : (Action.access (.write value) r.offset 4).endsSession = (value.toUInt32 == 0) := by
        rw [Action.endsSession, Action.isReset, Action.value?_write, if_pos status]
        exact Bool.or_false _
      rw [ends, status]
      exact passes_writeStatus linked _
    · have ends : (Action.access (.write value) r.offset 4).endsSession = false := by
        rw [Action.endsSession, Action.isReset, Action.value?_write, if_neg status]
        rfl
      rw [ends]
      exact .of_same (sameSession_carryOut d _ status).sessions
  | shutdown =>
    have ends : Action.shutdown.endsSession = true := rfl
    rw [ends, shutdown_eq]
    exact .of_ended linked rfl
  | aside elsewhere going aside =>
    have ends : action.endsSession = false := by
      rw [Action.endsSession, Action.isReset, elsewhere, Action.isShutdown_eq_false going]
      rfl
    rw [ends]
    exact .of_same aside.sessions

/-! ### Sessions and announcements -/

/-- The sessions are what the backend was handed, first to last. -/
def Announced (d : Device) : Prop :=
  d.machine.heard.filterMap BackendCall.session? = d.sessions.map Session.asHanded

theorem asHanded_endSession (d : Device) :
    d.endSession.sessions.map Session.asHanded = d.sessions.map Session.asHanded := by
  simp only [endSession]
  split
  · rfl
  · have blind (s : Session) : ({ s with retired := true } : Session).asHanded = s.asHanded := rfl
    exact Machine.map_modify blind d.sessions _

theorem Announced.of_heard {d d' : Device} (announced : d.Announced) {calls : List BackendCall}
    (heard : d'.machine.heard = d.machine.heard ++ calls)
    (plain : calls.filterMap BackendCall.session? = [])
    (sessions : d'.sessions.map Session.asHanded = d.sessions.map Session.asHanded) :
    d'.Announced := by
  rw [Announced, heard, List.filterMap_append, plain, List.append_nil, sessions]
  exact announced

theorem Announced.deliver {d : Device} (announced : d.Announced) : d.deliver.Announced := by
  have plain : d.handover.isLifecycle = true := rfl
  have heard := Machine.heard_append d.told_deliver fun _ =>
    isLifecycle_unlessShutDown d.backend plain
  rw [Announced, heard, List.filterMap_append, announced, deliver_eq,
    Backend.Connection.unlessShutDown]
  cases d.backend.isShutDown with
  | true => exact List.append_nil _
  | false =>
    show _ = (d.sessions ++ [d.nextSession]).map Session.asHanded
    rw [List.map_append]
    rfl

theorem session?_unlessShutDown (c : Backend.Connection) {call : BackendCall}
    (plain : call.session? = none) :
    (c.unlessShutDown call).filterMap BackendCall.session? = [] := by
  simp only [Backend.Connection.unlessShutDown]
  split
  · rfl
  · simp [plain]

theorem Announced.writeStatus {d : Device} (announced : d.Announced) (v : UInt32) :
    (d.writeStatus v).Announced := by
  have written := d.statusWritten v
  generalize d.writeStatus v = d' at written ⊢
  cases written with
  | reset zero =>
    have told : (d.powerOn.tellBackend d.backend.reset).machine.told =
        d.machine.told ++ d.backend.reset := by
      rw [told_tellBackend, told_powerOn]
    have heard := Machine.heard_append told fun _ => isLifecycle_unlessShutDown d.backend rfl
    refine announced.of_heard heard (session?_unlessShutDown _ rfl) ?_
    rw [powerOn_eq]
    exact d.asHanded_endSession
  | rejected nonzero => exact announced
  | moved nonzero follows still => exact announced
  | @started status nonzero follows running before untold =>
    exact Announced.deliver (d := d.withConfig (d.registers.config.settle status)) announced

/-- Only a status write can make an announcement. -/
theorem session?_due {d d' : Device} {action : Action} (noStatus : action.value? .status = none) :
    (d.due action d').filterMap BackendCall.session? = [] := by
  have plain (call : BackendCall) (news : d.news? action d' = some call) :
      call.session? = none := by
    rw [news?, noStatus] at news
    split at news
    · cases news
      rfl
    · split at news
      next found => cases found
      · split at news <;> cases news
        rfl
      · cases news
  cases news : d.news? action d' with
  | none => rw [due_eq_nil news]; rfl
  | some call => rw [due_eq_unlessShutDown news, session?_unlessShutDown _ (plain call news)]

theorem Happens.announced {d d' : Device} {action : Action} (happens : d.Happens action d')
    (settled : d.Settled) (prompt : d.Prompt) (announced : d.Announced) : d'.Announced := by
  have heard := happens.heard settled prompt
  cases happens with
  | register value r =>
    by_cases status : r = .status
    · rw [status]
      exact announced.writeStatus _
    · refine announced.of_heard heard (session?_due ?_) ?_
      · rw [Action.value?_write, if_neg status]
      · rw [(sameSession_carryOut d _ status).sessions]
  | shutdown =>
    refine announced.of_heard heard (session?_due rfl) ?_
    rw [shutdown_eq]
    exact d.asHanded_endSession
  | aside elsewhere going aside =>
    refine announced.of_heard heard (session?_due (elsewhere _)) ?_
    rw [aside.sessions]

/-! ### Numbers of old sessions -/

/-- Nothing that is done with the numbers of a session and its virtqueues changes anything, and all
work on the virtqueues is refused. -/
structure Inert (d : Device) (n : Nat) (s : Session) : Prop where
  requests : ∀ number, some number ∈ s.queues → ∀ request,
    (d.machine.perform number request).1 = d.machine ∧
      (d.step (.request number request)).1 = d ∧
      (request ≠ .wants → (d.machine.perform number request).2.error? = some .retired)
  raise : (d.step (.sessionRaise n)).1 = d
  clear : (d.step (.sessionClear n)).1 = d

theorem inert_of_retired {d : Device} (linked : d.Linked) {n : Nat} {s : Session}
    (found : d.sessions[n]? = some s) (ended : s.retired = true) : d.Inert n s where
  requests number listed request := by
    have retired := linked.handles s (List.mem_of_getElem? found) number listed
    rw [ended] at retired
    obtain ⟨same, refused⟩ := Machine.perform_dead (Machine.liveQueue_retired retired) request
    refine ⟨same, ?_, refused⟩
    show { d with machine := (d.machine.perform number request).1 } = d
    rw [same]
  raise := by
    show d.sessionRaise n = d
    rw [sessionRaise, found]
    exact if_pos ended
  clear := by
    show d.sessionClear n = d
    rw [sessionClear, found]
    exact if_pos ended

/-! ### Runs -/

/-- What holds of the sessions of every device that can be reached. -/
structure Orderly (d : Device) : Prop extends Regular d where
  linked : d.Linked
  announced : d.Announced

theorem orderly_new {profile : Profile} {options : Options} {ram : Memory.Ram} {d : Device}
    (built : Device.new profile options ram = .ok d) : d.Orderly := by
  have regular := regular_new built
  rw [new_eq_ok built] at regular ⊢
  refine ⟨regular, ⟨fun n s found => ?_, fun n s held => ?_, fun n held => ?_, fun s member => ?_,
    fun _ number listed => ?_⟩, rfl⟩
  · cases found
  · cases held
  · cases held
  · cases member
  · simp [RegisterFile.new, Registers.blank] at listed

theorem orderly_step {d : Device} (orderly : d.Orderly) (action : Action) :
    (d.step action).1.Orderly := by
  have happens := step_happens orderly.toSettled action
  exact ⟨regular_step orderly.toRegular action, happens.linked orderly.sound orderly.linked,
    happens.announced orderly.toSettled orderly.prompt orderly.announced⟩

theorem orderly_run {d : Device} (orderly : d.Orderly) (actions : List Action) :
    (d.run actions).1.Orderly :=
  run_keeps (P := Orderly) (fun _ action now => orderly_step now action) actions orderly

theorem passes_step {d : Device} (orderly : d.Orderly) (action : Action) :
    Passes d action.endsSession (d.step action).1 :=
  (step_happens orderly.toSettled action).passes orderly.linked

/-- A session is retired by the first action that ends it and stays retired. -/
theorem kept_run {d : Device} (orderly : d.Orderly) {n : Nat} {s : Session}
    (found : d.sessions[n]? = some s) (actions : List Action) :
    (d.run actions).1.sessions[n]? =
      some { s with retired := s.retired || actions.any Action.endsSession } := by
  induction actions generalizing d s with
  | nil =>
    rw [List.any_nil, Bool.or_false]
    exact found
  | cons action later ih =>
    have next := (passes_step orderly action).kept n s found
    rw [List.any_cons, ← Bool.or_assoc]
    exact ih (orderly_step orderly action) next

/-- Handles outlive their session but have no effect any more. The sessions of a device are those
that its backend was handed. At most one of them is not retired, and a new one never is. Each is
retired, together with its virtqueues, by the first reset or shutdown after it began, for good, and
from then on its numbers are inert, whatever the driver sets up again. -/
theorem stale_handles_inert {profile : Profile} {options : Options} {ram : Memory.Ram}
    {d₀ d : Device} (built : Device.new profile options ram = .ok d₀) (actions : List Action)
    (reached : (d₀.run actions).1 = d) :
    d.machine.heard.filterMap BackendCall.session? = d.sessions.map Session.asHanded ∧
      (∀ (n n' : Nat) (s s' : Session), d.sessions[n]? = some s → d.sessions[n']? = some s' →
        s.retired = false → s'.retired = false → n = n') ∧
      (∀ action (n : Nat) (s : Session), d.sessions[n]? = none →
        (d.step action).1.sessions[n]? = some s → s.retired = false) ∧
      ∀ (n : Nat) (s : Session), d.sessions[n]? = some s → ∀ later,
        (d.run later).1.sessions[n]? =
          some { s with retired := s.retired || later.any Action.endsSession } ∧
        (∀ number, some number ∈ s.queues → (d.run later).1.machine.retired? number =
          some (s.retired || later.any Action.endsSession)) ∧
        ((s.retired || later.any Action.endsSession) = true → (d.run later).1.Inert n s) := by
  have orderly : d.Orderly := reached ▸ orderly_run (orderly_new built) actions
  refine ⟨orderly.announced, ?_, fun action => (passes_step orderly action).begun, ?_⟩
  -- A session is not retired exactly while the device holds its number, and it holds one at most.
  · intro n n' s s' found found' live live'
    have one := orderly.linked.current n s found
    have other := orderly.linked.current n' s' found'
    rw [live] at one
    rw [live'] at other
    simp only [Bool.false_eq, Bool.not_eq_eq_eq_not, Bool.not_false, beq_iff_eq] at one other
    exact Option.some.inj (one.symm.trans other)
  · intro n s found later
    have orderly' := orderly_run orderly later
    have kept := kept_run orderly found later
    refine ⟨kept, ?_, fun ended => ?_⟩
    · intro number listed
      exact orderly'.linked.handles _ (List.mem_of_getElem? kept) number listed
    · have inert := inert_of_retired orderly'.linked kept ended
      exact ⟨inert.requests, inert.raise, inert.clear⟩

/-! The driver of the sample device resets it and sets its queue up again, in the same place. The
backend still holds the numbers of the first session. -/

def sampleRestart : List Action :=
  .access (.write 0) 0x70 4 :: sampleActions.drop 2

theorem sampleDevice_stale :
    (sampleDevice.run sampleRestart).1.sessions =
        [⟨0, [some 0], true⟩, ⟨0, [some 1], false⟩] ∧
      (sampleDevice.run sampleRestart).1.machine.retired? 0 = some true ∧
      ((sampleDevice.run sampleRestart).1.step (.request 0 .take)).1 =
        (sampleDevice.run sampleRestart).1 ∧
      ((sampleDevice.run sampleRestart).1.machine.perform 0 .take).2.error? = some .retired ∧
      ((sampleDevice.run sampleRestart).1.step (.sessionRaise 0)).1 =
        (sampleDevice.run sampleRestart).1 := by
  have first : sampleDevice.sessions[0]? = some ⟨0, [some 0], false⟩ := by decide +kernel
  have ends : sampleRestart.any Action.endsSession = true := by decide +kernel
  have sessions : (sampleDevice.run sampleRestart).1.sessions =
      [⟨0, [some 0], true⟩, ⟨0, [some 1], false⟩] := by
    decide +kernel
  obtain ⟨_, _, _, each⟩ :=
    stale_handles_inert sampleStart_built sampleActions rfl (d := sampleDevice)
  obtain ⟨_, retired, inert⟩ := each 0 _ first sampleRestart
  rw [ends, Bool.or_true] at retired inert
  have ended := inert rfl
  have handle : some 0 ∈ ([some 0] : List (Option Nat)) := by decide
  obtain ⟨_, same, refused⟩ := ended.requests 0 handle .take
  exact ⟨sessions, retired 0 handle, same, refused (by simp), ended.raise⟩

end Device

end VirtioMmio
