import VirtioMmio.Device.Basic

/-!
The IOMMU of a device. Attaching, mapping and their reversals involve the IOMMU and the backend,
each of which may refuse; the device undoes what the other side had already agreed to, so that both
always agree with the table.
-/

namespace VirtioMmio.Device

open Backend (IommuCall)
open Dma (Mapping)

/-- What the IOMMU and the backend answer during one operation. -/
structure Replies where
  iommuAttach : Except IommuError Unit := .ok ()
  iommuMap : UInt64 → Nat → Memory.Rights → Except IommuError Mapping
  iommuUnmap : Mapping → Except IommuError Unit := fun _ => .ok ()
  backendAttach : Except IommuError Unit := .ok ()
  backendMap : UInt16 → Mapping → Except IommuError Unit := fun _ _ => .ok ()

def askIommu (d : Device) (call : IommuCall) : Device :=
  d.modifyMachine (·.record [.iommu call])

def withTable (d : Device) (dma : Dma.Table) : Device :=
  d.modifyMachine fun m => { m with dma }

/-- Attach an IOMMU: it is asked first, then the backend. -/
def attachIommu (d : Device) (replies : Replies) : Device × Except IommuError Unit :=
  if d.machine.dma.attached then (d, .error .alreadyAttached)
  else
    let d := d.askIommu .attach
    match replies.iommuAttach with
    | .error e => (d, .error e)
    | .ok () =>
      let (calls, outcome) := d.backend.attach replies.backendAttach
      let d := d.tellBackend calls
      match outcome with
      -- The IOMMU had agreed already.
      | .error e => (d.askIommu .detach, .error e)
      | .ok () => (d.withTable { d.machine.dma with attached := true }, .ok ())

/-- Undo the mapping of a class, if it has one. The IOMMU's answer does not matter. -/
def dropClass (d : Device) (cls : UInt16) : Device :=
  match d.machine.dma.remove cls with
  | .error _ => d
  | .ok (mapping, dma) =>
    ((d.withTable dma).tellBackend (d.backend.unmap cls mapping)).askIommu (.unmap mapping)

/-- Detach the IOMMU, undoing every mapping before. -/
def detachIommu (d : Device) : Device × Except IommuError Unit :=
  if !d.machine.dma.attached then (d, .error .notAttached)
  else
    let classes := (List.range d.machine.dma.classes.length).map UInt16.ofNat
    let d := classes.foldl dropClass d
    let d := d.tellBackend d.backend.detach
    let d := d.withTable { d.machine.dma with attached := false }
    (d.askIommu .detach, .ok ())

/-- Map a class: the IOMMU is asked first, then the backend. After a refusal the class stays
unmapped. -/
def mapClass (d : Device) (replies : Replies) (cls : UInt16) (iova : UInt64) (len : Nat)
    (rights : Memory.Rights) : Device × Except IommuError Mapping :=
  if !d.machine.dma.attached then (d, .error .notAttached)
  else if d.machine.dma.classes.length ≤ cls.toNat then (d, .error (.unknownClass cls))
  else if (d.machine.dma.mapping cls).isSome then (d, .error (.alreadyMapped cls))
  else if len = 0 ∨ 0x1_0000_0000_0000_0000 ≤ iova.toNat + len then
    (d, .error (.invalidRange iova len))
  else
    let d := d.askIommu (.map iova len rights)
    match replies.iommuMap iova len rights with
    | .error e => (d, .error e)
    | .ok mapping =>
      let (calls, outcome) := d.backend.map cls mapping (replies.backendMap cls mapping)
      let d := d.tellBackend calls
      match outcome with
      -- The IOMMU had agreed already; what it answers now does not matter.
      | .error e => (d.askIommu (.unmap mapping), .error e)
      | .ok () =>
        match d.machine.dma.insert cls mapping with
        | .error e =>
          ((d.tellBackend (d.backend.unmap cls mapping)).askIommu (.unmap mapping), .error e)
        | .ok dma => (d.withTable dma, .ok mapping)

/-- Unmap a class. It is unmapped afterwards whatever the IOMMU answers. -/
def unmapClass (d : Device) (replies : Replies) (cls : UInt16) : Device × Except IommuError Unit :=
  if !d.machine.dma.attached then (d, .error .notAttached)
  else
    match d.machine.dma.remove cls with
    | .error e => (d, .error e)
    | .ok (mapping, dma) =>
      (((d.withTable dma).tellBackend (d.backend.unmap cls mapping)).askIommu (.unmap mapping),
        replies.iommuUnmap mapping)

end VirtioMmio.Device
