import VirtioMmio.Bytes.Halves
import VirtioMmio.DeviceTree.Slots
import VirtioMmio.Proofs.DeviceTree.Flat
import VirtioMmio.Proofs.DeviceTree.Walk

/-!
Trees that describe devices, written and read back by a reader that goes by the rules of the format.
A node under the root describes a device or is none of `virtio,mmio`; what else it says, and in
which order, does not matter. Main result: `slots_write`.
-/

namespace VirtioMmio.DeviceTree

open BigEndian (readCell)
open Board (Slot)

/-! ### Devices -/

/-- A device as a node describes it: its registers and its interrupt. -/
structure Place where
  base : UInt64
  size : UInt64
  isPrivate : Bool
  number : UInt32
  deriving DecidableEq, Repr

namespace Place

/-- The first interrupt of the kind. -/
def interruptBase (p : Place) : UInt32 :=
  if p.isPrivate then Board.privateInterruptBase else Board.sharedInterruptBase

def slot (p : Place) : Slot :=
  ⟨p.base, p.size, p.number + p.interruptBase⟩

/-- Address and size, two cells each, the upper half first. -/
def reg (p : Place) : List UInt8 :=
  cell (Halves.high p.base).toNat ++ cell (Halves.low p.base).toNat ++
    (cell (Halves.high p.size).toNat ++ cell (Halves.low p.size).toNat)

/-- Kind, number and flags of the interrupt, one cell each. -/
def interrupts (p : Place) (flags : UInt32) : List UInt8 :=
  cell (if p.isPrivate then 1 else 0) ++ cell p.number.toNat ++ cell flags.toNat

end Place

/-- The properties are those of a `virtio,mmio` node. -/
def OfDevice (properties : List Property) : Prop :=
  ∃ value ∈ lastValue properties "compatible", deviceCompatible ∈ stringsOf value

instance (properties : List Property) : Decidable (OfDevice properties) :=
  inferInstanceAs
    (Decidable (∃ value ∈ lastValue properties "compatible", deviceCompatible ∈ stringsOf value))

/-- The properties of a node describe a device. There may be others among them. -/
structure Describes (properties : List Property) (p : Place) : Prop where
  compatible : OfDevice properties
  reg : firstValue properties "reg" = some p.reg
  interrupts : ∃ flags, firstValue properties "interrupts" = some (p.interrupts flags)
  fits : p.number.toNat + p.interruptBase.toNat < 2 ^ 32

/-- A node that says of a device what is needed and nothing else. -/
def deviceNode (name : String) (p : Place) : Leaf where
  name := utf8 name
  properties := [⟨utf8 "compatible", utf8 deviceCompatible ++ [0]⟩, ⟨utf8 "reg", p.reg⟩,
    ⟨utf8 "interrupts", p.interrupts 1⟩]

theorem describes_deviceNode (name : String) {p : Place}
    (fits : p.number.toNat + p.interruptBase.toNat < 2 ^ 32) :
    Describes (deviceNode name p).properties p where
  compatible := ⟨utf8 deviceCompatible ++ [0], rfl, by decide +kernel⟩
  reg := rfl
  interrupts := ⟨1, rfl⟩
  fits := fits

/-- A root under which addresses and sizes take two cells each, and which is no device itself. -/
structure Leaf.IsRoot (root : Leaf) : Prop where
  named : root.Named
  addressCells : LaysDown root.properties "#address-cells" 2 2
  sizeCells : LaysDown root.properties "#size-cells" 1 2
  other : ¬ OfDevice root.properties

/-- A word in two cells is the number that they make up. -/
theorem decode_halves (word : UInt64) :
    BigEndian.decode (cell (Halves.high word).toNat ++ cell (Halves.low word).toNat) =
      word.toNat := by
  have shift : Nat.pow 256 4 = 0x1_0000_0000 := rfl
  rw [BigEndian.decode_append, decode_cell (UInt32.toNat_lt _), decode_cell (UInt32.toNat_lt _),
    length_cell, shift, Halves.toNat_eq word]

theorem Place.beginsWith_reg (p : Place) : BeginsWith p.reg 2 2 ⟨p.base, some p.size⟩ where
  addressFits := by decide
  sizeFits := by decide
  parts := by
    refine ⟨cell (Halves.high p.base).toNat ++ cell (Halves.low p.base).toNat,
      cell (Halves.high p.size).toNat ++ cell (Halves.low p.size).toNat, [], ?_, ?_, ?_, ?_, ?_⟩
    · rw [List.append_nil, reg]
    · simp
    · simp
    · rw [decode_halves, UInt64.ofNat_toNat]
    · rw [decode_halves, UInt64.ofNat_toNat]
      rfl

/-- The line of an interrupt is its number counted from the first one of its kind. -/
theorem Place.decodeInterrupt_interrupts (p : Place) (flags : UInt32)
    (fits : p.number.toNat + p.interruptBase.toNat < 2 ^ 32) :
    decodeInterrupt (p.interrupts flags) = some (p.number + p.interruptBase) := by
  have kind : (if p.isPrivate then 1 else 0) < 2 ^ 32 := by split <;> decide
  have number : p.number.toNat < 2 ^ 32 := p.number.toNat_lt
  have last := readCell_cell flags.toNat_lt []
  have sum : UInt32.ofNat (p.number.toNat + p.interruptBase.toNat) =
      p.number + p.interruptBase := by
    rw [UInt32.ofNat_add, UInt32.ofNat_toNat, UInt32.ofNat_toNat]
  rw [List.append_nil] at last
  rw [interrupts, List.append_assoc]
  simp only [decodeInterrupt, readCell_cell kind, readCell_cell number, last]
  obtain ⟨base, size, isPrivate, number⟩ := p
  cases isPrivate <;> exact (if_pos fits).trans (congrArg some sum)

/-! ### Answers -/

section Answers

variable {root n : Leaf} {s : Stanza} {node : Node} {p : Place}

/-- A reader takes a node for a device if and only if its properties say so. -/
theorem Answers.isCompatible_iff (answers : Answers s node) :
    node.isCompatible deviceCompatible = true ↔ OfDevice s.properties := by
  rw [Node.isCompatible, answers.compatible, OfDevice]
  cases lastValue s.properties "compatible" with
  | none => simp
  | some value => simp

/-- What a reader answers of a node that describes a device is its place. -/
theorem Describes.slot (describes : Describes n.properties p) (isRoot : root.IsRoot)
    (answers : Answers (n.under (some root.properties)) node) : node.slot = .ok p.slot := by
  obtain ⟨flags, value⟩ := describes.interrupts
  have registers : node.reg = some ⟨p.base, some p.size⟩ :=
    answers.reg isRoot.addressCells isRoot.sizeCells describes.reg p.beginsWith_reg
  have interrupt : node.property "interrupts" = some (p.interrupts flags) :=
    (answers.property _).trans value
  simp only [Node.slot, registers, interrupt, Option.bind_some,
    p.decodeInterrupt_interrupts flags describes.fits, Option.getD_some, Place.slot]

end Answers

/-! ### Trees -/

/-- A node under the root, and what it is meant as. -/
inductive Entry where
  | device (leaf : Leaf) (place : Place)
  | other (leaf : Leaf)
  deriving DecidableEq, Repr

namespace Entry

def leaf : Entry → Leaf
  | .device leaf _ => leaf
  | .other leaf => leaf

/-- The place that an entry asks for. -/
def slot? : Entry → Option Slot
  | .device _ place => some place.slot
  | .other _ => none

/-- The properties of an entry say what it is meant as: those of a device describe it, and others
may be any, but not those of a device. -/
def Sound : Entry → Prop
  | .device leaf place => Describes leaf.properties place
  | .other leaf => ¬ OfDevice leaf.properties

/-- Only devices are looked at, and each of them yields its place. -/
theorem slotsOf_filter {root : Leaf} {entries : List Entry} {nodes : List Node}
    (sound : ∀ e ∈ entries, e.Sound) (isRoot : root.IsRoot)
    (answers : List.Forall₂ Answers
      (entries.map fun e => e.leaf.under (some root.properties)) nodes) :
    slotsOf (nodes.filter (·.isCompatible deviceCompatible)) =
      .ok (entries.filterMap slot?) := by
  induction entries generalizing nodes with
  | nil =>
    cases answers
    rfl
  | cons e entries ih =>
    cases answers with
    | @cons _ node _ nodes first others =>
      have rest := ih (fun f member => sound f (List.mem_cons_of_mem _ member)) others
      have meant := sound e List.mem_cons_self
      rw [List.filter_cons]
      -- The filter keeps a node if and only if its entry is a device.
      cases e with
      | device leaf place =>
        have found : node.slot = .ok place.slot := Describes.slot meant isRoot first
        rw [if_pos (first.isCompatible_iff.mpr meant.compatible), slotsOf, found, rest]
        rfl
      | other leaf =>
        rw [if_neg (mt first.isCompatible_iff.mp meant), rest]
        rfl

end Entry

/-! ### Order -/

theorem base_le_trans (a b c : Slot) (ab : decide (a.base ≤ b.base) = true)
    (bc : decide (b.base ≤ c.base) = true) : decide (a.base ≤ c.base) = true := by
  rw [decide_eq_true_eq] at *
  exact UInt64.le_trans ab bc

theorem base_le_total (a b : Slot) :
    (decide (a.base ≤ b.base) || decide (b.base ≤ a.base)) = true := by
  simpa using UInt64.le_total a.base b.base

/-- Sorting by address keeps the order of places with one address. -/
theorem filter_mergeSort (places : List Slot) (base : UInt64) :
    (places.mergeSort fun a b => a.base ≤ b.base).filter (·.base = base) =
      places.filter (·.base = base) := by
  -- Places with one address are in order as they stand, so the sort keeps them as a sublist; as it
  -- drops none, they are the whole.
  have level : (places.filter (·.base = base)).Pairwise
      fun a b => decide (a.base ≤ b.base) = true := by
    refine List.pairwise_of_forall_mem_list fun a ha b hb => ?_
    rw [List.mem_filter, decide_eq_true_eq] at ha hb
    simp [ha.2, hb.2]
  have kept := List.sublist_mergeSort base_le_trans base_le_total level List.filter_sublist
  have among := kept.filter (·.base = base)
  rw [List.filter_filter] at among
  simp only [Bool.and_self] at among
  have same := (List.mergeSort_perm places fun a b => a.base ≤ b.base).filter (·.base = base)
  exact (among.eq_of_length same.length_eq.symm).symm

/-- A tree gives back its devices. Whatever devices and other nodes stand under the root, and what
else the nodes say, every reader that goes by the rules of the format makes the search succeed with
one place for each device and no others, sorted by address, those with one address in the order of
the tree. -/
theorem slots_write {r : Reader} (follows : r.Follows 2) {root : Leaf} {entries : List Entry}
    (isRoot : root.IsRoot) (named : ∀ e ∈ entries, e.leaf.Named) (sound : ∀ e ∈ entries, e.Sound)
    (small : (write root (entries.map Entry.leaf)).length < 2 ^ 32) :
    ∃ found, slots r (write root (entries.map Entry.leaf)) = .ok found ∧
      found.Perm (entries.filterMap Entry.slot?) ∧
      found.Pairwise (fun a b => a.base ≤ b.base) ∧
      ∀ base, found.filter (·.base = base) =
        (entries.filterMap Entry.slot?).filter (·.base = base) := by
  have leaves : ∀ n ∈ entries.map Entry.leaf, n.Named := by
    intro n member
    obtain ⟨e, among, rfl⟩ := List.mem_map.mp member
    exact named e among
  obtain ⟨body, strings, carries, walk⟩ := walk_write isRoot.named leaves small
  obtain ⟨nodes, accepted, answers⟩ := follows.nodes carries walk
  rw [List.map_map] at answers
  cases answers with
  | @cons _ node _ nodes first others =>
    -- The first node is the root, which is no device.
    have other : ¬ node.isCompatible deviceCompatible = true :=
      mt first.isCompatible_iff.mp isRoot.other
    have found := Entry.slotsOf_filter sound isRoot others
    have read : slots r (write root (entries.map Entry.leaf)) =
        .ok ((entries.filterMap Entry.slot?).mergeSort fun a b => a.base ≤ b.base) := by
      simp only [slots, accepted, List.filter_cons, if_neg other, found]
    refine ⟨_, read, List.mergeSort_perm _ _, ?_, filter_mergeSort _⟩
    have sorted :=
      List.pairwise_mergeSort base_le_trans base_le_total (entries.filterMap Entry.slot?)
    exact sorted.imp fun le => of_decide_eq_true le

/-! A tree with a serial port among three devices, two of which share an address. -/

def sampleRoot : Leaf where
  name := []
  properties := [⟨utf8 "#address-cells", cell 2⟩, ⟨utf8 "#size-cells", cell 2⟩,
    ⟨utf8 "compatible", utf8 "linux,dummy-virt" ++ [0]⟩]

def serialPort : Leaf where
  name := utf8 "pl011@9000000"
  properties := [⟨utf8 "compatible", utf8 "arm,pl011" ++ [0] ++ utf8 "arm,primecell" ++ [0]⟩,
    ⟨utf8 "reg", [1, 2, 3]⟩]

def sampleEntries : List Entry :=
  let first : Place := ⟨0xa000200, 0x200, false, 17⟩
  let second : Place := ⟨0xa000000, 0x200, false, 16⟩
  let third : Place := ⟨0xa000200, 0x1000, true, 4⟩
  [.device (deviceNode "virtio_mmio@a000200" first) first,
    .other serialPort,
    .device (deviceNode "virtio_mmio@a000000" second) second,
    .device (deviceNode "virtio_mmio@a000200" third) third]

theorem isRoot_sampleRoot : sampleRoot.IsRoot where
  named := by decide +kernel
  addressCells := .own [] (by decide) (by decide +kernel) (by decide +kernel)
  sizeCells := .own [] (by decide) (by decide +kernel) (by decide +kernel)
  other := by decide +kernel

theorem sampleEntries_found :
    ∃ found, slots Flat.reader (write sampleRoot (sampleEntries.map Entry.leaf)) = .ok found ∧
      found.length = 3 ∧
      found.filter (·.base = 0xa000200) = [⟨0xa000200, 0x200, 49⟩, ⟨0xa000200, 0x1000, 20⟩] := by
  have named : ∀ e ∈ sampleEntries, e.leaf.Named := by decide +kernel
  have sound : ∀ e ∈ sampleEntries, e.Sound := by
    have other : ¬ OfDevice serialPort.properties := by decide +kernel
    simp only [sampleEntries, List.forall_mem_cons]
    exact ⟨describes_deviceNode _ (by decide), other, describes_deviceNode _ (by decide),
      describes_deviceNode _ (by decide), List.forall_mem_nil _⟩
  obtain ⟨found, read, perm, -, order⟩ :=
    slots_write (Flat.reader_follows 2) isRoot_sampleRoot named sound (by decide +kernel)
  exact ⟨found, read, perm.length_eq, order 0xa000200⟩

end VirtioMmio.DeviceTree
