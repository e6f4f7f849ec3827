import VirtioMmio.Proofs.Device.Moves

/-!
What a backend is still told after the device was taken down. Nothing of how the device fares, since
that is not due any more; what is left concerns an IOMMU that is still attached. Main result:
`shutdown_leaves_mappings`. Mappings are taken down and the IOMMU detached, but a mapping that the
host asks for is announced all the same.
-/

namespace VirtioMmio

open Backend (BackendCall Call)

namespace Backend.BackendCall

/-- The call takes back what an IOMMU was attached or a buffer class mapped for. -/
def isTeardown : BackendCall → Bool
  | .unmap _ _ | .detach => true
  | _ => false

def isMap : BackendCall → Bool
  | .map _ _ => true
  | _ => false

end Backend.BackendCall

/-- The host makes use of an IOMMU, which has to be attached for it. -/
def Action.usesIommu : Action → Bool
  | .detach | .map _ _ _ _ _ | .unmap _ _ => true
  | _ => false

/-- The host asks for a mapping. -/
def Action.isMap : Action → Bool
  | .map _ _ _ _ _ => true
  | _ => false

namespace Device

/-! ### What is told of an IOMMU -/

theorem told_dealt (d : Device) (calls : List Call) (dma : Dma.Table) :
    (d.dealt calls dma).machine.told = d.machine.told ++ calls.filterMap Call.backend? :=
  Machine.told_record d.machine calls

/-- Of the calls that the backend was told from one state to the other, at most `maps` announce a
mapping, and all others are teardown. -/
def Dismantles (maps : Nat) (d d' : Device) : Prop :=
  ∃ calls, d'.machine.told = d.machine.told ++ calls ∧
    (∀ call ∈ calls, call.isTeardown = true ∨ call.isMap = true) ∧
    calls.countP BackendCall.isMap ≤ maps

namespace Dismantles

theorem of_same {d d' : Device} (same : d'.machine.told = d.machine.told) : Dismantles 0 d d' := by
  refine ⟨[], ?_, nofun, Nat.le_refl 0⟩
  rw [same, List.append_nil]

theorem refl (d : Device) : Dismantles 0 d d := of_same rfl

theorem trans {maps more : Nat} {d d' d'' : Device} (first : Dismantles maps d d')
    (second : Dismantles more d' d'') : Dismantles (maps + more) d d'' := by
  obtain ⟨calls, told, each, count⟩ := first
  obtain ⟨calls', told', each', count'⟩ := second
  refine ⟨calls ++ calls', ?_, ?_, ?_⟩
  · rw [told', told, List.append_assoc]
  · intro call member
    rcases List.mem_append.mp member with old | new
    · exact each call old
    · exact each' call new
  · rw [List.countP_append]
    exact Nat.add_le_add count count'

theorem mono {maps more : Nat} {d d' : Device} (dismantles : Dismantles maps d d')
    (less : maps ≤ more) : Dismantles more d d' := by
  obtain ⟨calls, told, each, count⟩ := dismantles
  exact ⟨calls, told, each, Nat.le_trans count less⟩

theorem dealt (d : Device) (calls : List Call) (dma : Dma.Table)
    (plain : ∀ call ∈ calls.filterMap Call.backend?, call.isTeardown = true ∨ call.isMap = true) :
    Dismantles ((calls.filterMap Call.backend?).countP BackendCall.isMap) d (d.dealt calls dma) :=
  ⟨_, told_dealt d calls dma, plain, Nat.le_refl _⟩

theorem foldl {α : Type} {f : Device → α → Device} (each : ∀ d x, Dismantles 0 d (f d x))
    (d : Device) (list : List α) : Dismantles 0 d (list.foldl f d) := by
  induction list generalizing d with
  | nil => exact refl d
  | cons x list ih => exact (each d x).trans (ih _)

end Dismantles

theorem dismantles_dropClass (d : Device) (cls : UInt16) : Dismantles 0 d (d.dropClass cls) := by
  have forgets := forgets_dropClass d cls
  generalize d.dropClass cls = d' at forgets ⊢
  cases forgets with
  | unmapped none => exact .refl d
  | @done mapping found =>
    refine .dealt d (forgetting cls mapping) _ ?_
    simp [forgetting, Call.backend?, BackendCall.isTeardown]

theorem dismantles_detachIommu (d : Device) : Dismantles 0 d d.detachIommu.1 := by
  rw [detachIommu_eq]
  split
  · refine (Dismantles.foldl dismantles_dropClass d _).trans (.dealt _ _ _ ?_)
    simp [Call.backend?, BackendCall.isTeardown]
  · exact .refl d

theorem dismantles_unmapClass (d : Device) (replies : Replies) (cls : UInt16) :
    Dismantles 0 d (d.unmapClass replies cls).1 := by
  rw [unmapClass_eq]
  split
  · exact dismantles_dropClass d cls
  · exact .refl d

/-- A mapping is announced at most once, and only after the IOMMU agreed to it. -/
theorem dismantles_mapClass (d : Device) (replies : Replies) (cls : UInt16) (iova : UInt64)
    (len : Nat) (rights : Memory.Rights) :
    Dismantles 1 d (d.mapClass replies cls iova len rights).1 := by
  have maps := mapsClass d replies cls iova len rights
  generalize d.mapClass replies cls iova len rights = outcome at maps ⊢
  cases maps with
  | rejected e => exact (Dismantles.refl d).mono (Nat.zero_le 1)
  | refused answer =>
    refine (Dismantles.dealt d [.iommu (.map iova len rights)] _ ?_).mono (Nat.zero_le 1)
    simp [Call.backend?]
  | @undone mapping e agreed answer =>
    refine .dealt d [.iommu (.map iova len rights), .backend (.map cls mapping),
      .iommu (.unmap mapping)] _ ?_
    simp [Call.backend?, BackendCall.isMap]
  | @done mapping attached free agreed answer =>
    refine .dealt d [.iommu (.map iova len rights), .backend (.map cls mapping)] _ ?_
    simp [Call.backend?, BackendCall.isMap]

/-! ### One action -/

/-- Neither the calls on the backend nor the mappings changed. -/
def Untold (d d' : Device) : Prop :=
  d'.machine.told = d.machine.told ∧ d'.machine.dma = d.machine.dma

/-- What is not about an IOMMU tells the backend how the device fares, which is not due any more. -/
theorem untold_beside {d : Device} (regular : d.Regular) (down : d.backend.isShutDown = true)
    {action : Action} (other : action.isDealing = false) : Untold d (d.step action).1 := by
  have moves := step_moves regular.toSettled other
  obtain ⟨calls, told, heard⟩ := moves.told
  have silent : (d.step action).1.machine.heard = d.machine.heard := by
    rw [heard_step regular, due, if_pos down, List.append_nil]
  have none : calls = [] := List.append_right_eq_self.mp (heard.symm.trans silent)
  rw [none, List.append_nil] at told
  exact ⟨told, moves.dma⟩

/-- A backend that was shut down is not asked whether an IOMMU may be attached, and none is. -/
theorem untold_attachIommu {d : Device} (down : d.backend.isShutDown = true) (replies : Replies) :
    Untold d (d.attachIommu replies).1 := by
  have attaches := attaches d replies
  generalize d.attachIommu replies = outcome at attaches ⊢
  cases attaches with
  | already attached => exact ⟨rfl, rfl⟩
  | refused detached answer => exact ⟨(told_dealt d _ _).trans (List.append_nil _), rfl⟩
  | down detached agreed down => exact ⟨(told_dealt d _ _).trans (List.append_nil _), rfl⟩
  | undone detached agreed going answer => exact nomatch down.symm.trans going
  | done detached agreed going answer => exact nomatch down.symm.trans going

/-- Without the use of an IOMMU a backend that was shut down is told nothing. -/
theorem untold_step {d : Device} (regular : d.Regular) (down : d.backend.isShutDown = true)
    {action : Action} (other : action.usesIommu = false) : Untold d (d.step action).1 := by
  cases about : action.isDealing with
  | false => exact untold_beside regular down about
  | true =>
    cases action with
    | attach replies => exact untold_attachIommu down replies
    | detach | map | unmap => cases other
    | _ => cases about

theorem dismantles_step {d : Device} (regular : d.Regular) (down : d.backend.isShutDown = true)
    (action : Action) : Dismantles action.isMap.toNat d (d.step action).1 := by
  cases about : action.usesIommu with
  | false =>
    have untold := untold_step regular down about
    have plain : action.isMap = false := by cases action <;> first | rfl | cases about
    rw [plain]
    exact .of_same untold.1
  | true =>
    cases action with
    | detach => exact dismantles_detachIommu d
    | map replies cls iova len rights => exact dismantles_mapClass d replies cls iova len rights
    | unmap replies cls => exact dismantles_unmapClass d replies cls
    | _ => cases about

/-- Without an IOMMU nothing is told at all, and none can be attached any more. -/
theorem untold_detached {d : Device} (regular : d.Regular) (down : d.backend.isShutDown = true)
    (detached : d.machine.dma.attached = false) (action : Action) :
    Untold d (d.step action).1 := by
  cases about : action.usesIommu with
  | false => exact untold_step regular down about
  | true =>
    cases action with
    | detach =>
      show Untold d d.detachIommu.1
      simp [detachIommu, detached, Untold]
    | map replies cls iova len rights =>
      show Untold d (d.mapClass replies cls iova len rights).1
      simp [mapClass, detached, Untold]
    | unmap replies cls =>
      show Untold d (d.unmapClass replies cls).1
      simp [unmapClass, detached, Untold]
    | _ => cases about

/-! ### Runs -/

/-- A device that was taken down stays so. -/
theorem stays_down {d : Device} (settled : d.Settled) (down : d.backend.isShutDown = true)
    (action : Action) : (d.step action).1.backend.isShutDown = true := by
  rw [isShutDown_step settled, down, Bool.true_or]

theorem dismantles_run {d : Device} (regular : d.Regular) (down : d.backend.isShutDown = true)
    (actions : List Action) : Dismantles (actions.countP Action.isMap) d (d.run actions).1 := by
  induction actions generalizing d with
  | nil => exact .refl d
  | cons action later ih =>
    -- The bounds on the mappings announced by the first action and by the others add up.
    have still := stays_down regular.toSettled down action
    have whole := (dismantles_step regular down action).trans
      (ih (regular_step regular action) still)
    have count : action.isMap.toNat + later.countP Action.isMap =
        (action :: later).countP Action.isMap := by
      rw [List.countP_cons, Nat.add_comm]
      cases action.isMap <;> rfl
    rw [← count]
    exact whole

theorem untold_run {d : Device} (regular : d.Regular) (down : d.backend.isShutDown = true)
    (detached : d.machine.dma.attached = false) (actions : List Action) :
    (d.run actions).1.machine.told = d.machine.told := by
  induction actions generalizing d with
  | nil => rfl
  | cons action later ih =>
    -- The mappings stand still as well, so no IOMMU comes back for the rest of the run.
    have still := stays_down regular.toSettled down action
    obtain ⟨told, dma⟩ := untold_detached regular down detached action
    rw [← dma] at detached
    exact (ih (regular_step regular action) still detached).trans told

/-- Once a device was taken down, its backend hears of nothing but mappings and the end of an IOMMU:
mappings are taken back, the IOMMU is detached, and each time that the host asks for a mapping at
most one is announced. If no IOMMU is attached, nothing reaches the backend any more. -/
theorem shutdown_leaves_mappings {profile : Profile} {options : Options} {ram : Memory.Ram}
    {d₀ d : Device} (built : Device.new profile options ram = .ok d₀) (actions : List Action)
    (reached : (d₀.run actions).1 = d) (down : actions.any Action.isShutdown = true) :
    ∀ later, ∃ calls, (d.run later).1.machine.told = d.machine.told ++ calls ∧
      (∀ call ∈ calls, call.isTeardown = true ∨ call.isMap = true) ∧
      calls.countP BackendCall.isMap ≤ later.countP Action.isMap ∧
      (d.machine.dma.attached = false → calls = []) := by
  have regular₀ := regular_new built
  have regular : d.Regular := reached ▸ regular_run regular₀ actions
  have isDown : d.backend.isShutDown = true := by
    rw [← reached, isShutDown_run regular₀.toSettled, down, Bool.or_true]
  intro later
  obtain ⟨calls, told, each, count⟩ := dismantles_run regular isDown later
  refine ⟨calls, told, each, count, ?_⟩
  intro detached
  have silent := untold_run regular isDown detached later
  rw [told] at silent
  exact List.append_right_eq_self.mp silent

/-! The host takes the sample device down while an IOMMU is attached, then asks for a mapping and at
last detaches the IOMMU. On a device without an IOMMU the same has no effect. -/

def afterlife : List Action :=
  [.map sampleReplies 0 0x1000 0xf00 .both, .detach]

def takenDown : Device :=
  (sampleStart.run [.attach sampleReplies, .shutdown]).1

def takenDownDetached : Device :=
  (sampleStart.run [.shutdown]).1

theorem takenDown_mappings :
    (∃ calls, (takenDown.run afterlife).1.machine.told = takenDown.machine.told ++ calls ∧
        (∀ call ∈ calls, call.isTeardown = true ∨ call.isMap = true) ∧
        calls.countP BackendCall.isMap ≤ 1) ∧
      (takenDownDetached.run afterlife).1.machine.told = takenDownDetached.machine.told := by
  have detached : takenDownDetached.machine.dma.attached = false := by decide +kernel
  obtain ⟨calls, told, each, count, _⟩ := shutdown_leaves_mappings sampleStart_built
    [.attach sampleReplies, .shutdown] rfl rfl (d := takenDown) afterlife
  obtain ⟨none, silent, _, _, nothing⟩ := shutdown_leaves_mappings sampleStart_built
    [.shutdown] rfl rfl (d := takenDownDetached) afterlife
  refine ⟨⟨calls, told, each, count⟩, ?_⟩
  rw [silent, nothing detached, List.append_nil]

/-- The mapping is announced to a backend that was shut down before. -/
theorem mapping_announced_after_shutdown :
    takenDown.backend.isShutDown = true ∧
      ¬ ∃ calls, (takenDown.run afterlife).1.machine.told = takenDown.machine.told ++ calls ∧
        ∀ call ∈ calls, call.isTeardown = true := by
  have before : takenDown.machine.told = [.attach, .shutdown] := by decide +kernel
  have after : (takenDown.run afterlife).1.machine.told =
      [.attach, .shutdown] ++ [.map 0 sampleWindow, .unmap 0 sampleWindow, .detach] := by
    decide +kernel
  refine ⟨by decide +kernel, ?_⟩
  rintro ⟨calls, told, each⟩
  rw [after, before, List.append_cancel_left_eq] at told
  have mapped := each (.map 0 sampleWindow) (told ▸ List.mem_cons_self)
  cases mapped

end Device

end VirtioMmio
