import Mathlib.Logic.Relation
import VirtioMmio.Proofs.Device.Lifecycle
import VirtioMmio.Proofs.Interrupt.Edges

/-!
Actions taken apart. Whatever an action does to the machine that registers and backend share, unless
it is about an IOMMU, is made of a few elementary moves (`step_moves`); what every move keeps, every
action keeps. Main results: `Moves.dma`, `Moves.calls`, `Moves.told`, `Moves.failed` and
`drives_step`.
-/

namespace VirtioMmio

open Backend (BackendCall Call)
open Interrupt (Line LineCall)
open Queue (Registers Virtqueue)

namespace Backend.Call

def line? : Call → Option LineCall
  | .line call => some call
  | .backend _ | .iommu _ => none

end Backend.Call

namespace Machine

/-- The calls on the interrupt controller, first to last. -/
def lineCalls (m : Machine) : List LineCall :=
  m.calls.filterMap Call.line?

/-! ### Moves -/

/-- One elementary change of a machine. -/
inductive Move (m : Machine) : Machine → Prop
  -- Bytes or rights of guest RAM.
  | memory (ram : Memory.Ram) : Move m { m with ram }
  | line (operation : Line.Operation) : Move m (m.withLine (m.line.operate operation))
  -- The backend is told how the device fares.
  | told (calls : List BackendCall) (plain : ∀ call ∈ calls, call.isLifecycle = true) :
    Move m (m.record (calls.map .backend))
  -- Whatever happens to a virtqueue does not mend it.
  | queue (number : Nat) (f : Virtqueue → Virtqueue)
    (lasting : ∀ q, q.failed = true → (f q).failed = true) : Move m (m.modifyQueue number f)
  | queueAdded (q : Virtqueue) : Move m { m with queues := m.queues ++ [q] }

def Moves : Machine → Machine → Prop :=
  Relation.ReflTransGen Move

namespace Moves

variable {m m' m'' : Machine}

theorem refl (m : Machine) : Moves m m := Relation.ReflTransGen.refl

theorem of_move (move : Move m m') : Moves m m' := Relation.ReflTransGen.single move

theorem trans (first : Moves m m') (second : Moves m' m'') : Moves m m'' :=
  Relation.ReflTransGen.trans first second

theorem raiseLine (m : Machine) (causes : Interrupt.Causes) : Moves m (m.raiseLine causes) :=
  of_move (.line (.raise causes))

theorem clearLine (m : Machine) (causes : Interrupt.Causes) : Moves m (m.clearLine causes) :=
  of_move (.line (.clear causes))

theorem lowerLine (m : Machine) : Moves m m.lowerLine :=
  of_move (.line .lower)

theorem fail (m : Machine) (number : Nat) : Moves m (m.fail number) := by
  simp only [Machine.fail]
  split
  · exact refl m
  · split
    · exact refl m
    · exact (of_move (.queue number _ fun _ _ => rfl)).trans (raiseLine _ _)

theorem perform (m : Machine) (number : Nat) (request : Request) :
    Moves m (m.perform number request).1 := by
  cases found : m.queues[number]? with
  | none =>
    rw [perform_absent found]
    exact refl m
  | some q =>
    obtain ⟨ram, _, outcome⟩ := perform_outcome found request
    refine (of_move (.memory ram)).trans ?_
    generalize (m.perform number request).1 = m' at outcome ⊢
    cases outcome with
    | kept => exact refl _
    | failed => exact fail _ number
    | took => exact of_move (.queue number _ fun _ failed => failed)
    | gave => exact of_move (.queue number _ fun _ failed => failed)

theorem retireLive (m : Machine) (r : Registers) : Moves m (m.retireLive r) := by
  simp only [Machine.retireLive]
  split
  · exact refl m
  · exact of_move (.queue _ _ fun _ failed => failed)

theorem foldl_retireLive (m : Machine) (queues : List Registers) :
    Moves m (queues.foldl Machine.retireLive m) := by
  induction queues generalizing m with
  | nil => exact refl m
  | cons r queues ih => exact (retireLive m r).trans (ih _)

/-! ### What moves keep -/

theorem dma (moves : Moves m m') : m'.dma = m.dma := by
  induction moves with
  | refl => rfl
  | tail _ move ih =>
    rw [← ih]
    cases move <;> rfl

/-- No call that is made is about an IOMMU. -/
theorem calls (moves : Moves m m') :
    ∃ calls, m'.calls = m.calls ++ calls ∧ ∀ call ∈ calls, call.isDealing = false := by
  induction moves with
  | refl => exact ⟨[], (List.append_nil _).symm, nofun⟩
  | @tail m₁ m₂ _ move ih =>
    -- Only two kinds of moves make calls.
    have more : ∃ calls, m₂.calls = m₁.calls ++ calls ∧ ∀ call ∈ calls, call.isDealing = false := by
      cases move with
      | line operation =>
        refine ⟨_, rfl, fun call member => ?_⟩
        obtain ⟨_, _, rfl⟩ := List.mem_map.mp member
        rfl
      | told calls plain =>
        refine ⟨_, rfl, fun call member => ?_⟩
        obtain ⟨told, listed, rfl⟩ := List.mem_map.mp member
        rw [Call.isDealing, plain told listed]
        rfl
      | _ => exact ⟨[], (List.append_nil _).symm, nofun⟩
    obtain ⟨calls, before, plain⟩ := ih
    obtain ⟨later, after, plain'⟩ := more
    refine ⟨calls ++ later, by rw [after, before, List.append_assoc], ?_⟩
    intro call member
    rcases List.mem_append.mp member with old | new
    · exact plain call old
    · exact plain' call new

/-- Whatever the backend is told is how the device fares. -/
theorem told (moves : Moves m m') :
    ∃ calls, m'.told = m.told ++ calls ∧ m'.heard = m.heard ++ calls := by
  obtain ⟨calls, more, plain⟩ := moves.calls
  have same : calls.filterMap Call.lifecycle? = calls.filterMap Call.backend? := by
    refine List.filterMap_congr fun call member => ?_
    have about := plain call member
    cases call with
    | backend call =>
      rw [Call.isDealing, Bool.not_eq_false'] at about
      rw [Call.lifecycle?, about]
      rfl
    | _ => rfl
  refine ⟨calls.filterMap Call.backend?, ?_, ?_⟩
  · rw [Machine.told, more, List.filterMap_append]
    rfl
  · rw [Machine.heard, more, List.filterMap_append, same]
    rfl

/-- Virtqueues never go away, and one that failed stays failed. -/
theorem failed (moves : Moves m m') {number : Nat} {q : Virtqueue}
    (found : m.queues[number]? = some q) (failed : q.failed = true) :
    ∃ q', m'.queues[number]? = some q' ∧ q'.failed = true := by
  induction moves with
  | refl => exact ⟨q, found, failed⟩
  | @tail m₁ m₂ _ move ih =>
    obtain ⟨q₁, found₁, failed₁⟩ := ih
    cases move with
    | queue other f lasting =>
      -- The virtqueue that changed may be this one or another.
      have changed : (m₁.modifyQueue other f).queues[number]? =
          some (if other = number then f q₁ else q₁) := by
        rw [modifyQueue, List.getElem?_modify, found₁]
        split <;> rfl
      refine ⟨_, changed, ?_⟩
      split
      · exact lasting q₁ failed₁
      · exact failed₁
    | queueAdded added =>
      have inside := (List.getElem?_eq_some_iff.mp found₁).1
      exact ⟨q₁, (List.getElem?_append_left inside).trans found₁, failed₁⟩
    | _ => exact ⟨q₁, found₁, failed₁⟩

end Moves

/-! ### The interrupt line -/

/-- The line went from one state to the other by some operations, and the calls on the controller
are those that they took. -/
def Drives (m m' : Machine) : Prop :=
  ∃ operations, m'.line = (m.line.run operations).1 ∧
    m'.lineCalls = m.lineCalls ++ (m.line.run operations).2

namespace Drives

variable {m m' m'' : Machine}

theorem of_same (line : m'.line = m.line) (calls : m'.lineCalls = m.lineCalls) : Drives m m' :=
  ⟨[], line, calls.trans (List.append_nil _).symm⟩

theorem trans (first : Drives m m') (second : Drives m' m'') : Drives m m'' := by
  obtain ⟨operations, line, calls⟩ := first
  obtain ⟨operations', line', calls'⟩ := second
  rw [line] at line' calls'
  refine ⟨operations ++ operations', ?_, ?_⟩
  · rw [line', Line.run_append]
  · rw [calls', calls, Line.run_append, List.append_assoc]

theorem withLine (m : Machine) (operation : Line.Operation) :
    Drives m (m.withLine (m.line.operate operation)) := by
  refine ⟨[operation], ?_, ?_⟩
  · rw [Line.run_singleton]
    rfl
  · rw [Line.run_singleton]
    simp [lineCalls, Machine.withLine, record, Call.line?, Function.comp_def]

/-- Calls on the other parties. -/
theorem record {calls : List Call} (elsewhere : ∀ call ∈ calls, call.line? = none) :
    Drives m (m.record calls) := by
  refine of_same rfl ?_
  rw [lineCalls, Machine.record, List.filterMap_append, List.filterMap_eq_nil_iff.mpr elsewhere]
  exact List.append_nil _

end Drives

theorem Moves.drives {m m' : Machine} (moves : Moves m m') : Drives m m' := by
  induction moves with
  | refl => exact .of_same rfl rfl
  | @tail m₁ m₂ _ move ih =>
    refine ih.trans ?_
    cases move with
    | line operation => exact .withLine m₁ operation
    | told calls plain =>
      refine .record fun call member => ?_
      obtain ⟨_, _, rfl⟩ := List.mem_map.mp member
      rfl
    | _ => exact .of_same rfl rfl

end Machine

open Machine (Moves)

/-! ### Actions -/

/-- The action is about an IOMMU. -/
def Action.isDealing : Action → Bool
  | .attach _ | .detach | .map _ _ _ _ _ | .unmap _ _ => true
  | _ => false

namespace Device

theorem moves_tellBackend (d : Device) (call : BackendCall) (plain : call.isLifecycle = true) :
    Moves d.machine (d.tellBackend (d.backend.unlessShutDown call)).machine :=
  .of_move (.told _ fun _ member => isLifecycle_unlessShutDown d.backend plain member)

theorem moves_notify (d : Device) (index : UInt16) : Moves d.machine (d.notify index).machine := by
  simp only [notify]
  split
  · exact moves_tellBackend d _ rfl
  · exact .refl _

theorem moves_bringUpQueue (d : Device) (index : UInt16) :
    Moves d.machine (d.bringUpQueue index).machine := by
  have up := d.bringsUp index
  generalize d.bringUpQueue index = d' at up ⊢
  cases up with
  | done => exact .of_move (.queueAdded _)
  | _ => exact .refl _

theorem moves_powerOn (d : Device) : Moves d.machine d.powerOn.machine := by
  rw [powerOn_eq]
  exact (Moves.foldl_retireLive _ _).trans (.lowerLine _)

theorem moves_writeStatus (d : Device) (v : UInt32) :
    Moves d.machine (d.writeStatus v).machine := by
  have written := d.statusWritten v
  generalize d.writeStatus v = d' at written ⊢
  cases written with
  | reset zero =>
    refine (moves_powerOn d).trans ?_
    exact .of_move (.told _ fun _ member => isLifecycle_unlessShutDown d.backend rfl member)
  | rejected nonzero => exact .refl _
  | moved nonzero follows still => exact .refl _
  | @started status nonzero follows running before untold =>
    rw [deliver_eq]
    exact moves_tellBackend (d.withConfig _) (handover _) rfl

theorem moves_carryOut (d : Device) (v : UInt32) (r : Transport.Register) :
    Moves d.machine (d.carryOut v r).machine := by
  cases r with
  | status => exact moves_writeStatus d v
  | queueReady =>
    simp only [carryOut, makeReady]
    split
    · exact .refl _
    · exact moves_bringUpQueue { d with registers := d.registers.modifySelected .markReady } _
  | queueNotify =>
    simp only [carryOut, ring]
    split
    · exact moves_notify d _
    · exact .refl _
  | interruptAcknowledge =>
    simp only [carryOut, acknowledge]
    split
    · exact .refl _
    · exact .clearLine _ _
  | _ => exact .refl _

theorem moves_shutdown (d : Device) : Moves d.machine d.shutdown.machine := by
  rw [shutdown_eq]
  have plain : BackendCall.shutdown.isLifecycle = true := rfl
  refine (Moves.foldl_retireLive _ d.registers.queues).trans ?_
  exact .of_move (.told _ fun _ member => isLifecycle_unlessShutDown d.backend plain member)

theorem moves_works {d d' : Device} (works : Works d d') : Moves d.machine d'.machine := by
  cases works with
  | idle => exact .refl _
  | served number request => exact .perform d.machine number request
  | raised => exact .raiseLine _ _
  | cleared => exact .lowerLine _
  | revised block same => exact .refl _
  | announced block same => exact .raiseLine _ _
  | memory ram same => exact .of_move (.memory ram)

theorem moves_access {d : Device} (settled : d.Settled) (access : Access) (offset : UInt64)
    (size : UInt8) : Moves d.machine (d.access access offset size).1.machine := by
  have accessed := accessed settled access offset size
  generalize (d.access access offset size).1 = d' at accessed ⊢
  cases accessed with
  | register value r => exact moves_carryOut d _ r
  | beside block elsewhere => exact .refl _

theorem deals_step (d : Device) {action : Action} (about : action.isDealing = true) :
    Deals d (d.step action).1 := by
  cases action with
  | attach replies => exact deals_attachIommu d replies
  | detach => exact deals_detachIommu d
  | map replies cls iova len rights => exact deals_mapClass d replies cls iova len rights
  | unmap replies cls => exact deals_unmapClass d replies cls
  | _ => cases about

/-- An action that is not about an IOMMU is made of moves. -/
theorem step_moves {d : Device} (settled : d.Settled) {action : Action}
    (other : action.isDealing = false) : Moves d.machine (d.step action).1.machine := by
  cases action with
  | access access offset size => exact moves_access settled access offset size
  | settle =>
    rw [show (d.step .settle).1 = d.settle from rfl, settle_quiet settled.quiet]
    exact .refl _
  | shutdown => exact moves_shutdown d
  | attach | detach | map | unmap => cases other
  | _ => exact moves_works (works_step d rfl)

/-- Every action does to the interrupt line what some operations on it do. -/
theorem drives_step {d : Device} (settled : d.Settled) (action : Action) :
    Machine.Drives d.machine (d.step action).1.machine := by
  cases about : action.isDealing with
  | false => exact (step_moves settled about).drives
  | true =>
    -- The controller is not told of what is agreed with an IOMMU.
    obtain ⟨calls, dma, same, dealing⟩ := deals_step d about
    rw [same]
    refine .trans (.record fun call member => ?_) (.of_same rfl rfl)
    have about := dealing call member
    cases call with
    | line call => cases about
    | _ => rfl

end Device

end VirtioMmio
