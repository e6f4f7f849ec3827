import VirtioMmio.Proofs.Device.Runs
import VirtioMmio.Proofs.Machine.Retirement

/-!
What happens beside the driver: work of the backend, changes by the host, the IOMMU, and memory.
`Aside` says what none of it touches. Main results: `aside_works` and `aside_deals`.
-/

namespace VirtioMmio

open Backend (BackendCall Call)

/-! ### What a backend is told -/

namespace Backend

def Call.lifecycle? : Call → Option BackendCall
  | .backend call => if call.isLifecycle then some call else none
  | .line _ | .iommu _ => none

def Call.backend? : Call → Option BackendCall
  | .backend call => some call
  | .line _ | .iommu _ => none

end Backend

namespace Machine

/-- The calls that told the backend how the device fares, first to last. -/
def heard (m : Machine) : List BackendCall :=
  m.calls.filterMap Call.lifecycle?

/-- All calls on the backend, first to last. -/
def told (m : Machine) : List BackendCall :=
  m.calls.filterMap Call.backend?

theorem heard_record (m : Machine) (calls : List Call) :
    (m.record calls).heard = m.heard ++ calls.filterMap Call.lifecycle? :=
  List.filterMap_append

theorem told_record (m : Machine) (calls : List Call) :
    (m.record calls).told = m.told ++ calls.filterMap Call.backend? :=
  List.filterMap_append

/-- What the backend hears of how the device fares is among all it is told. -/
theorem heard_eq_filter (m : Machine) : m.heard = m.told.filter BackendCall.isLifecycle := by
  rw [heard, told, List.filter_filterMap]
  apply List.filterMap_congr
  intro call _
  cases call with
  | backend call => exact (Option.filter_some ..).symm
  | _ => rfl

theorem heard_of_told {m m' : Machine} (same : m'.told = m.told) : m'.heard = m.heard := by
  rw [heard_eq_filter, heard_eq_filter, same]

theorem heard_append {m m' : Machine} {calls : List BackendCall} (more : m'.told = m.told ++ calls)
    (plain : ∀ call ∈ calls, call.isLifecycle = true) : m'.heard = m.heard ++ calls := by
  rw [heard_eq_filter, heard_eq_filter, more, List.filter_append, List.filter_eq_self.mpr plain]

theorem told_withLine (m : Machine) (change : Interrupt.Line × List Interrupt.LineCall) :
    (m.withLine change).told = m.told := by
  have none : (change.2.map Call.line).filterMap Call.backend? = [] := by
    rw [List.filterMap_map]
    exact List.filterMap_eq_nil_iff.mpr fun _ _ => rfl
  simp only [withLine]
  rw [told_record, none]
  exact List.append_nil _

theorem told_fail (m : Machine) (number : Nat) : (m.fail number).told = m.told := by
  simp only [fail]
  split
  · rfl
  · split
    · rfl
    · exact told_withLine _ _

theorem told_raiseLine (m : Machine) (causes : Interrupt.Causes) :
    (m.raiseLine causes).told = m.told :=
  told_withLine m _

theorem told_clearLine (m : Machine) (causes : Interrupt.Causes) :
    (m.clearLine causes).told = m.told :=
  told_withLine m _

theorem told_lowerLine (m : Machine) : m.lowerLine.told = m.told :=
  told_withLine m _

namespace Outcome

variable {number : Nat} {m m' : Machine}

theorem told (outcome : Outcome number m m') : m'.told = m.told := by
  cases outcome with
  | failed => exact told_fail m number
  | _ => rfl

end Outcome

theorem told_perform (m : Machine) (number : Nat) (request : Request) :
    (m.perform number request).1.told = m.told := by
  cases found : m.queues[number]? with
  | none => rw [perform_absent found]
  | some q =>
    obtain ⟨ram, _, outcome⟩ := perform_outcome found request
    exact outcome.told

/-- Work on a virtqueue tells the backend nothing and changes no more than its positions and its
failure. -/
theorem perform_aside (m : Machine) (number : Nat) (request : Request) :
    (m.perform number request).1.heard = m.heard ∧
      (m.perform number request).1.lasting = m.lasting := by
  refine ⟨heard_of_told (m.told_perform number request), ?_⟩
  cases found : m.queues[number]? with
  | none => rw [perform_absent found]
  | some q =>
    obtain ⟨ram, _, outcome⟩ := perform_outcome found request
    exact outcome.lasting

end Machine

namespace Device

/-! ### The relations -/

/-- No session began or ended. -/
structure SameSession (d d' : Device) : Prop where
  delivered : d'.delivered = d.delivered
  session : d'.session = d.session
  sessions : d'.sessions = d.sessions
  backend : d'.backend = d.backend

namespace SameSession

theorem refl (d : Device) : SameSession d d := ⟨rfl, rfl, rfl, rfl⟩

theorem trans {d d' d'' : Device} (first : SameSession d d') (second : SameSession d' d'') :
    SameSession d d'' where
  delivered := second.delivered.trans first.delivered
  session := second.session.trans first.session
  sessions := second.sessions.trans first.sessions
  backend := second.backend.trans first.backend

end SameSession

/-- No session began or ended, and no virtqueue came, went or was retired. -/
structure Undisturbed (d d' : Device) : Prop extends SameSession d d' where
  live : d'.registers.queues.map (·.live) = d.registers.queues.map (·.live)
  virtqueues : d'.machine.lasting = d.machine.lasting

namespace Undisturbed

theorem refl (d : Device) : Undisturbed d d := ⟨.refl d, rfl, rfl⟩

theorem trans {d d' d'' : Device} (first : Undisturbed d d') (second : Undisturbed d' d'') :
    Undisturbed d d'' where
  toSameSession := first.toSameSession.trans second.toSameSession
  live := second.live.trans first.live
  virtqueues := second.virtqueues.trans first.virtqueues

end Undisturbed

/-- The driver has no part in the change: of the registers only the configuration block may have
changed, and the backend was told nothing of how the device fares. -/
structure Aside (d d' : Device) : Prop extends Undisturbed d d' where
  registers : ∃ block, d'.registers = { d.registers with config.block := block }
  heard : d'.machine.heard = d.machine.heard

namespace Aside

theorem refl (d : Device) : Aside d d := ⟨.refl d, ⟨_, rfl⟩, rfl⟩

theorem trans {d d' d'' : Device} (first : Aside d d') (second : Aside d' d'') : Aside d d'' := by
  obtain ⟨block, registers⟩ := first.registers
  obtain ⟨later, registers'⟩ := second.registers
  refine ⟨first.toUndisturbed.trans second.toUndisturbed, ⟨later, ?_⟩,
    second.heard.trans first.heard⟩
  rw [registers', registers]

/-- A change to what registers and backend share. -/
theorem of_machine (d : Device) {machine : Machine} (heard : machine.heard = d.machine.heard)
    (lasting : machine.lasting = d.machine.lasting) : Aside d { d with machine } :=
  ⟨⟨⟨rfl, rfl, rfl, rfl⟩, rfl, lasting⟩, ⟨_, rfl⟩, heard⟩

end Aside

/-! ### Operations -/

theorem aside_raiseLine (d : Device) (causes : Interrupt.Causes) :
    Aside d (d.modifyMachine (·.raiseLine causes)) :=
  .of_machine d (Machine.heard_of_told (d.machine.told_raiseLine causes)) rfl

theorem aside_clearLine (d : Device) (causes : Interrupt.Causes) :
    Aside d (d.modifyMachine (·.clearLine causes)) :=
  .of_machine d (Machine.heard_of_told (d.machine.told_clearLine causes)) rfl

theorem aside_works {d d' : Device} (works : Works d d') : Aside d d' := by
  have revised (block : Config.Block) : Aside d { d with registers.config.block := block } :=
    ⟨⟨⟨rfl, rfl, rfl, rfl⟩, rfl, rfl⟩, ⟨block, rfl⟩, rfl⟩
  cases works with
  | idle => exact .refl d
  | served number request =>
    obtain ⟨heard, lasting⟩ := d.machine.perform_aside number request
    exact .of_machine d heard lasting
  | raised => exact aside_raiseLine d _
  | cleared => exact aside_clearLine d _
  | revised block same => exact revised block
  | announced block same => exact (revised block).trans (aside_raiseLine _ _)
  | memory ram same => exact .of_machine d rfl rfl

/-- Calls about an IOMMU say nothing of how the device fares. -/
theorem aside_deals {d d' : Device} (deals : Deals d d') : Aside d d' := by
  obtain ⟨calls, dma, rfl, each⟩ := deals
  refine .of_machine d ?_ rfl
  have plain : calls.filterMap Call.lifecycle? = [] := by
    refine List.filterMap_eq_nil_iff.mpr fun call member => ?_
    have about := each call member
    cases call with
    | backend call =>
      rw [Call.isDealing, Bool.not_eq_true'] at about
      rw [Call.lifecycle?, about]
      rfl
    | _ => rfl
  show (d.machine.record calls).heard = d.machine.heard
  rw [Machine.heard_record, plain]
  exact List.append_nil _

end Device

end VirtioMmio
