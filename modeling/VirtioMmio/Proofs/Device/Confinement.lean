import VirtioMmio.Proofs.Device.Runs

/-!
What an IOMMU keeps a device from. Main result: `requests_confined`. In every reachable state with
an IOMMU attached, whatever a backend asks of a queue stays inside the mapping that the queue's
class has at the moment, and is answered from the bytes there alone.

Addresses of the guest occur nowhere in the statement: they may be anything, and so may the mapping.
-/

namespace VirtioMmio

open Dma (Mapping)
open Memory (Ram Rights Store)
open Queue (Virtqueue)

/-- The window of a mapping as a range of numbers; it need not end at an address. -/
def Dma.Mapping.Covers (m : Mapping) (a : Nat) : Prop :=
  m.gpa.toNat ≤ a ∧ a < m.gpa.toNat + m.len

namespace Memory.Rights

theorem includes_writing {r : Rights} : r.includes .writing = true ↔ r.write = true := by
  simp [includes, writing]

theorem includes_reading {r : Rights} : r.includes .reading = true ↔ r.read = true := by
  simp [includes, reading]

end Memory.Rights

namespace Device

def withStore (d : Device) (store : Store) : Device :=
  { d with machine := d.machine.withStore store }

def byte (d : Device) (a : Nat) : UInt8 :=
  d.machine.ram.store.byte a

def Changes (d : Device) (action : Action) (a : Nat) : Prop :=
  (d.step action).1.byte a ≠ d.byte a

/-- Whatever two memories hold, as long as they agree on some addresses, the action is answered the
same. -/
def AnswersFrom (d : Device) (action : Action) (on : Nat → Prop) : Prop :=
  ∀ one two : Store, (∀ a, on a → one.byte a = two.byte a) →
    ((d.withStore one).step action).2 = ((d.withStore two).step action).2

/-- An action stays inside a mapping and keeps to its rights and to those of guest RAM. -/
structure Confined (d : Device) (action : Action) (m : Mapping) : Prop where
  window : ∀ a, d.Changes action a → m.Covers a
  regions : ∀ a, d.Changes action a →
    ∀ r ∈ d.machine.ram.regions, r.Owns a → r.rights.write = true
  readOnly : m.rights.write = false → ∀ a, ¬ d.Changes action a
  agreeing : d.AnswersFrom action m.Covers
  blind : m.rights.read = false → d.AnswersFrom action fun _ => False

/-- An action changes nothing in guest RAM and is answered without it. -/
structure ShutOut (d : Device) (action : Action) : Prop where
  unchanged : ∀ a, ¬ d.Changes action a
  blind : d.AnswersFrom action fun _ => False

/-! ### Through the space of a queue -/

section Space

variable {d : Device} {number : Nat} {q : Virtqueue} {request : Request}

theorem grants_of_changes (handle : d.machine.queues[number]? = some q) {a : Nat}
    (changes : d.Changes (.request number request) a) :
    (d.machine.space q).Grants .writing a :=
  (Machine.perform_within handle request).bytes a changes

theorem answersFrom_grants (handle : d.machine.queues[number]? = some q) :
    d.AnswersFrom (.request number request) ((d.machine.space q).Grants .reading) := by
  intro one two same
  have agree := (Machine.perform_agrees (m := d.machine.withStore one) handle
    (fun a granted => (same a granted).symm) request).1
  exact congrArg Response.answer agree.symm

theorem AnswersFrom.mono {action : Action} {on more : Nat → Prop}
    (answers : d.AnswersFrom action on) (wider : ∀ a, on a → more a) : d.AnswersFrom action more :=
  fun one two same => answers one two fun a at' => same a (wider a at')

/-- With an IOMMU a queue is granted what the mapping of its class grants. -/
theorem mapping_of_grants (attached : d.machine.dma.attached = true) {access : Rights} {a : Nat}
    (granted : (d.machine.space q).Grants access a) :
    ∃ m, d.machine.dma.mapping q.index = some m ∧ m.Covers a ∧ m.rights.includes access = true := by
  obtain ⟨m, mapped, lower, upper, right⟩ := granted.1 attached
  exact ⟨m, mapped, ⟨lower, upper⟩, right⟩

theorem confined (handle : d.machine.queues[number]? = some q)
    (sound : d.machine.ram.WellFormed) (attached : d.machine.dma.attached = true) {m : Mapping}
    (mapped : d.machine.dma.mapping q.index = some m) : d.Confined (.request number request) m := by
  have through {access : Rights} {a : Nat} (granted : (d.machine.space q).Grants access a) :
      m.Covers a ∧ m.rights.includes access = true := by
    obtain ⟨other, mapped', covers, right⟩ := mapping_of_grants attached granted
    cases mapped.symm.trans mapped'
    exact ⟨covers, right⟩
  constructor
  · intro a changes
    exact (through (grants_of_changes handle changes)).1
  · -- The region that grants the write is the one that the address lies in.
    intro a changes r member owns
    obtain ⟨owner, ownerMember, owned, right⟩ := (grants_of_changes handle changes).2
    have same := sound.owner_unique member ownerMember owns owned
    exact same ▸ Rights.includes_writing.mp right
  · intro readOnly a changes
    have right := Rights.includes_writing.mp (through (grants_of_changes handle changes)).2
    rw [readOnly] at right
    cases right
  · exact (answersFrom_grants handle).mono fun a granted => (through granted).1
  · -- Without the right to read, no byte is granted, so any two memories will do.
    intro blind
    apply (answersFrom_grants handle).mono
    intro a granted
    have right := Rights.includes_reading.mp (through granted).2
    rw [blind] at right
    cases right

theorem shutOut (handle : d.machine.queues[number]? = some q)
    (attached : d.machine.dma.attached = true)
    (unmapped : d.machine.dma.mapping q.index = none) : d.ShutOut (.request number request) := by
  have nothing {access : Rights} {a : Nat} : ¬ (d.machine.space q).Grants access a := by
    intro granted
    obtain ⟨m, mapped, _⟩ := mapping_of_grants attached granted
    rw [unmapped] at mapped
    cases mapped
  constructor
  · intro a changes
    exact nothing (grants_of_changes handle changes)
  · exact (answersFrom_grants handle).mono fun a granted => nothing granted

end Space

/-! ### In reachable states -/

/-- However a device came to its state, a request on a queue is confined to the mapping of the
queue's class, or shut out of memory if the class has none. -/
theorem requests_confined {profile : Profile} {options : Options} {ram : Ram} {d₀ d : Device}
    (built : Device.new profile options ram = .ok d₀) (sound : ram.WellFormed)
    (actions : List Action) (reached : (d₀.run actions).1 = d)
    (attached : d.machine.dma.attached = true) {number : Nat} {q : Virtqueue}
    (handle : d.machine.queues[number]? = some q) (request : Request) :
    (∀ m, d.machine.dma.mapping q.index = some m → d.Confined (.request number request) m) ∧
      (d.machine.dma.mapping q.index = none → d.ShutOut (.request number request)) := by
  have reachable := wellFormed_run built sound actions
  rw [reached] at reachable
  constructor
  · intro m mapped
    exact confined handle reachable attached mapped
  · intro unmapped
    exact shutOut handle attached unmapped

/-! A transfer into a buffer of the sample device. -/

def sampleWrite : Request :=
  .scatter ⟨0, [⟨0x1300, 4, 2, 0⟩]⟩ [5, 6, 7, 8]

theorem sampleDevice_confined :
    sampleDevice.Confined (.request 0 sampleWrite) sampleWindow ∧
      sampleDevice.Changes (.request 0 sampleWrite) 0x1401 := by
  have attached : sampleDevice.machine.dma.attached = true := by decide +kernel
  have mapped : sampleDevice.machine.dma.mapping 0 = some sampleWindow := by decide +kernel
  have handle : sampleDevice.machine.queues[0]? = some
      { index := 0, layout := ⟨4, 0x1000, 0x1100, 0x1200⟩, indirect := false } := by
    decide +kernel
  have outcome := requests_confined sampleStart_built Machine.wellFormed_sampleRam sampleActions rfl
    attached handle sampleWrite
  have changed : (sampleDevice.step (.request 0 sampleWrite)).1.byte 0x1401 ≠
      sampleDevice.byte 0x1401 := by
    decide +kernel
  exact ⟨outcome.1 sampleWindow mapped, changed⟩

end Device

end VirtioMmio
