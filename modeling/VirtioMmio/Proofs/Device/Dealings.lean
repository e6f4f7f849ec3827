import VirtioMmio.Device.Iommu

/-!
What an operation on an IOMMU comes to: the calls that it makes on either side, first to last, the
table of mappings it leaves, and its answer. Main results: `attaches`, `mapsClass` and
`forgets_dropClass`, the inversions of the operations, one case for each way in which a side may
refuse, and `deals_attachIommu` and its like, by which no operation does anything else.
-/

namespace VirtioMmio

open Backend (BackendCall Call IommuCall)
open Dma (Mapping Table)

namespace Backend

/-- Calls that tell a backend how its device fares; the others are about the IOMMU. -/
def BackendCall.isLifecycle : BackendCall → Bool
  | .driverOk _ _ | .notify _ | .reset | .shutdown => true
  | .attach | .detach | .map _ _ | .unmap _ _ => false

/-- The call is about an IOMMU. -/
def Call.isDealing : Call → Bool
  | .line _ => false
  | .backend call => !call.isLifecycle
  | .iommu _ => true

end Backend

namespace Device

/-- The device after some calls, with another table of mappings. -/
def dealt (d : Device) (calls : List Call) (dma : Table) : Device :=
  { d with machine := { d.machine.record calls with dma } }

theorem dealt_nil (d : Device) : d.dealt [] d.machine.dma = d := by
  simp only [dealt, Machine.record, List.append_nil]

theorem dealt_dealt (d : Device) (calls later : List Call) (dma dma' : Table) :
    (d.dealt calls dma).dealt later dma' = d.dealt (calls ++ later) dma' := by
  simp only [dealt, Machine.record, List.append_assoc]

theorem askIommu_eq (d : Device) (call : IommuCall) :
    d.askIommu call = d.dealt [.iommu call] d.machine.dma := rfl

theorem tellBackend_eq (d : Device) (calls : List BackendCall) :
    d.tellBackend calls = d.dealt (calls.map .backend) d.machine.dma := rfl

theorem withTable_eq (d : Device) (dma : Table) : d.withTable dma = d.dealt [] dma := by
  simp only [dealt, Machine.record, List.append_nil, withTable, modifyMachine]

theorem dma_dealt (d : Device) (calls : List Call) (dma : Table) :
    (d.dealt calls dma).machine.dma = dma := rfl

theorem backend_dealt (d : Device) (calls : List Call) (dma : Table) :
    (d.dealt calls dma).backend = d.backend := rfl

/-! ### Attaching -/

/-- What an attempt to attach an IOMMU comes to. -/
inductive Attaches (d : Device) (replies : Replies) : Device × Except IommuError Unit → Prop
  | already (attached : d.machine.dma.attached = true) :
    Attaches d replies (d, .error .alreadyAttached)
  -- The IOMMU refused, and the backend is not asked.
  | refused {e : IommuError} (detached : d.machine.dma.attached = false)
    (answer : replies.iommuAttach = .error e) :
    Attaches d replies (d.dealt [.iommu .attach] d.machine.dma, .error e)
  -- The backend was shut down, so it is not asked either.
  | down (detached : d.machine.dma.attached = false) (agreed : replies.iommuAttach = .ok ())
    (down : d.backend.isShutDown = true) :
    Attaches d replies
      (d.dealt [.iommu .attach, .iommu .detach] d.machine.dma, .error .attachFailed)
  -- The backend refused what the IOMMU had agreed to.
  | undone {e : IommuError} (detached : d.machine.dma.attached = false)
    (agreed : replies.iommuAttach = .ok ()) (going : d.backend.isShutDown = false)
    (answer : replies.backendAttach = .error e) :
    Attaches d replies
      (d.dealt [.iommu .attach, .backend .attach, .iommu .detach] d.machine.dma, .error e)
  | done (detached : d.machine.dma.attached = false) (agreed : replies.iommuAttach = .ok ())
    (going : d.backend.isShutDown = false) (answer : replies.backendAttach = .ok ()) :
    Attaches d replies
      (d.dealt [.iommu .attach, .backend .attach] { d.machine.dma with attached := true }, .ok ())

theorem attaches (d : Device) (replies : Replies) :
    Attaches d replies (d.attachIommu replies) := by
  unfold attachIommu
  split
  next attached => exact .already attached
  next other =>
    have detached := Bool.eq_false_iff.mpr other
    simp only [askIommu_eq, backend_dealt]
    cases agreed : replies.iommuAttach with
    | error e => exact .refused detached agreed
    | ok =>
      dsimp only
      -- A backend that is down refuses without a call.
      by_cases down : d.backend.isShutDown = true
      · have asked : d.backend.attach replies.backendAttach = ([], .error .attachFailed) :=
          if_pos down
        rw [asked]
        simp only [tellBackend_eq, dealt_dealt, dma_dealt]
        exact .down detached agreed down
      · have asked : d.backend.attach replies.backendAttach = ([.attach], replies.backendAttach) :=
          if_neg down
        have going := Bool.eq_false_iff.mpr down
        rw [asked]
        cases answer : replies.backendAttach with
        | error e =>
          simp only [tellBackend_eq, dealt_dealt, dma_dealt]
          exact .undone detached agreed going answer
        | ok =>
          simp only [tellBackend_eq, withTable_eq, dealt_dealt, dma_dealt]
          exact .done detached agreed going answer

/-! ### Mapping -/

/-- What an attempt to map a class comes to. -/
inductive MapsClass (d : Device) (replies : Replies) (cls : UInt16) (iova : UInt64) (len : Nat)
    (rights : Memory.Rights) : Device × Except IommuError Mapping → Prop
  -- Neither side is asked for a range or a class that the device knows to be wrong.
  | rejected (e : IommuError) : MapsClass d replies cls iova len rights (d, .error e)
  | refused {e : IommuError} (answer : replies.iommuMap iova len rights = .error e) :
    MapsClass d replies cls iova len rights
      (d.dealt [.iommu (.map iova len rights)] d.machine.dma, .error e)
  -- The backend refused what the IOMMU had granted.
  | undone {mapping : Mapping} {e : IommuError}
    (agreed : replies.iommuMap iova len rights = .ok mapping)
    (answer : replies.backendMap cls mapping = .error e) :
    MapsClass d replies cls iova len rights
      (d.dealt [.iommu (.map iova len rights), .backend (.map cls mapping),
        .iommu (.unmap mapping)] d.machine.dma, .error e)
  | done {mapping : Mapping} (attached : d.machine.dma.attached = true)
    (free : d.machine.dma.classes[cls.toNat]? = some none)
    (agreed : replies.iommuMap iova len rights = .ok mapping)
    (answer : replies.backendMap cls mapping = .ok ()) :
    MapsClass d replies cls iova len rights
      (d.dealt [.iommu (.map iova len rights), .backend (.map cls mapping)]
        { d.machine.dma with classes := d.machine.dma.classes.set cls.toNat (some mapping) },
        .ok mapping)

/-- The class was looked up before either side was asked, so it can still be mapped afterwards. -/
theorem mapsClass (d : Device) (replies : Replies) (cls : UInt16) (iova : UInt64) (len : Nat)
    (rights : Memory.Rights) :
    MapsClass d replies cls iova len rights (d.mapClass replies cls iova len rights) := by
  unfold mapClass
  split
  · exact .rejected _
  next attached =>
    split
    · exact .rejected _
    next known =>
      split
      · exact .rejected _
      next unmapped =>
        split
        · exact .rejected _
        · have free : d.machine.dma.classes[cls.toNat]? = some none := by
            have inside := Nat.not_le.mp known
            rw [Table.mapping, List.getElem?_eq_getElem inside] at unmapped
            rw [List.getElem?_eq_getElem inside]
            simpa using unmapped
          simp only [askIommu_eq, Backend.Connection.map]
          cases agreed : replies.iommuMap iova len rights with
          | error e => exact .refused agreed
          | ok mapping =>
            simp only [tellBackend_eq, dealt_dealt, dma_dealt]
            cases answer : replies.backendMap cls mapping with
            | error e => exact .undone agreed answer
            | ok =>
              -- The calls left the table alone, so the class is still free.
              simp only [Table.insert, free, withTable_eq, dealt_dealt]
              exact .done (by simpa using attached) free agreed answer

/-! ### Unmapping -/

/-- The calls by which the mapping of a class is taken back. -/
def forgetting (cls : UInt16) (mapping : Mapping) : List Call :=
  [.backend (.unmap cls mapping), .iommu (.unmap mapping)]

/-- What it comes to if the mapping of a class is to be taken back, if it has one. -/
inductive Forgets (d : Device) (cls : UInt16) : Device → Prop
  | unmapped (none : d.machine.dma.mapping cls = none) : Forgets d cls d
  | done {mapping : Mapping} (found : d.machine.dma.classes[cls.toNat]? = some (some mapping)) :
    Forgets d cls (d.dealt (forgetting cls mapping)
      { d.machine.dma with classes := d.machine.dma.classes.set cls.toNat none })

theorem forgets_dropClass (d : Device) (cls : UInt16) : Forgets d cls (d.dropClass cls) := by
  simp only [dropClass, Table.remove]
  cases found : d.machine.dma.classes[cls.toNat]? with
  | none => exact .unmapped (by rw [Table.mapping, found]; rfl)
  | some slot =>
    cases slot with
    | none => exact .unmapped (by rw [Table.mapping, found]; rfl)
    | some mapping =>
      simp only [withTable_eq, tellBackend_eq, askIommu_eq, dealt_dealt, dma_dealt]
      exact .done found

/-- Unmapping a class takes its mapping back just as the end of the IOMMU does. -/
theorem unmapClass_eq (d : Device) (replies : Replies) (cls : UInt16) :
    (d.unmapClass replies cls).1 = if d.machine.dma.attached then d.dropClass cls else d := by
  simp only [unmapClass, dropClass]
  cases d.machine.dma.attached with
  | false => rfl
  | true =>
    cases d.machine.dma.remove cls <;> rfl

/-- Detaching takes back the mapping of every class before either side is told. -/
theorem detachIommu_eq (d : Device) :
    d.detachIommu.1 =
      if d.machine.dma.attached then
        let e := ((List.range d.machine.dma.classes.length).map UInt16.ofNat).foldl dropClass d
        e.dealt [.backend .detach, .iommu .detach] { e.machine.dma with attached := false }
      else d := by
  simp only [detachIommu]
  cases d.machine.dma.attached with
  | false => rfl
  | true =>
    simp only [Bool.not_true, Bool.false_eq_true, if_false, if_true]
    generalize List.foldl dropClass d _ = e
    simp only [tellBackend_eq, withTable_eq, askIommu_eq, dealt_dealt, dma_dealt]
    rfl

/-! ### Nothing else -/

/-- Calls about an IOMMU were made and the table of mappings may have changed, but nothing else. -/
def Deals (d d' : Device) : Prop :=
  ∃ calls dma, d' = d.dealt calls dma ∧ ∀ call ∈ calls, call.isDealing = true

namespace Deals

theorem refl (d : Device) : Deals d d :=
  ⟨[], d.machine.dma, d.dealt_nil.symm, nofun⟩

theorem trans {d d' d'' : Device} (first : Deals d d') (second : Deals d' d'') : Deals d d'' := by
  obtain ⟨calls, dma, rfl, each⟩ := first
  obtain ⟨later, dma', rfl, each'⟩ := second
  refine ⟨calls ++ later, dma', dealt_dealt .., fun call member => ?_⟩
  rcases List.mem_append.mp member with old | new
  · exact each call old
  · exact each' call new

theorem dropClass (d : Device) (cls : UInt16) : Deals d (d.dropClass cls) := by
  have forgets := forgets_dropClass d cls
  generalize d.dropClass cls = d' at forgets ⊢
  cases forgets with
  | unmapped none => exact refl d
  | done found =>
    exact ⟨_, _, rfl, by simp [forgetting, Call.isDealing, BackendCall.isLifecycle]⟩

theorem foldl_dropClass (d : Device) (classes : List UInt16) :
    Deals d (classes.foldl Device.dropClass d) := by
  induction classes generalizing d with
  | nil => exact refl d
  | cons cls classes ih => exact (dropClass d cls).trans (ih _)

end Deals

theorem deals_attachIommu (d : Device) (replies : Replies) : Deals d (d.attachIommu replies).1 := by
  have attaches := attaches d replies
  generalize d.attachIommu replies = outcome at attaches ⊢
  cases attaches with
  | already attached => exact .refl d
  | _ => exact ⟨_, _, rfl, by simp [Call.isDealing, BackendCall.isLifecycle]⟩

theorem deals_detachIommu (d : Device) : Deals d d.detachIommu.1 := by
  rw [detachIommu_eq]
  split
  · refine (Deals.foldl_dropClass d _).trans ⟨_, _, rfl, ?_⟩
    simp [Call.isDealing, BackendCall.isLifecycle]
  · exact .refl d

theorem deals_mapClass (d : Device) (replies : Replies) (cls : UInt16) (iova : UInt64) (len : Nat)
    (rights : Memory.Rights) : Deals d (d.mapClass replies cls iova len rights).1 := by
  have maps := mapsClass d replies cls iova len rights
  generalize d.mapClass replies cls iova len rights = outcome at maps ⊢
  cases maps with
  | rejected e => exact .refl d
  | _ => exact ⟨_, _, rfl, by simp [Call.isDealing, BackendCall.isLifecycle]⟩

theorem deals_unmapClass (d : Device) (replies : Replies) (cls : UInt16) :
    Deals d (d.unmapClass replies cls).1 := by
  rw [unmapClass_eq]
  split
  · exact .dropClass d cls
  · exact .refl d

end Device

end VirtioMmio
