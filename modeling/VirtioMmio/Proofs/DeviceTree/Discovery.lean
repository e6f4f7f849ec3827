import Mathlib.Data.List.Forall2
import VirtioMmio.Proofs.DeviceTree.RoundTrip

/-!
Which places a device tree describes, whatever reader takes it apart. `Node.Yields` is what a device
node says if it says enough, and `Node.Lacks` what is missing from it if it does not, both in terms
of what the reader answers. Main result: `slots_all_or_nothing`, by which the first node that lacks
something decides, and otherwise every node yields its place.
-/

namespace VirtioMmio.DeviceTree

open BigEndian (readCell)
open Board (Slot)

/-! ### Interrupts -/

/-- A value begins with the specifier of an interrupt: its kind, its number counted from the first
one of the kind, and flags, one cell each. -/
inductive Specifies : List UInt8 → UInt32 → Prop
  | sharedPeripheral (number flags : UInt32) (rest : List UInt8) {intid : UInt32}
    (counted : intid.toNat = number.toNat + 32) :
    Specifies (cell 0 ++ (cell number.toNat ++ (cell flags.toNat ++ rest))) intid
  | privatePeripheral (number flags : UInt32) (rest : List UInt8) {intid : UInt32}
    (counted : intid.toNat = number.toNat + 16) :
    Specifies (cell 1 ++ (cell number.toNat ++ (cell flags.toNat ++ rest))) intid

/-- A cell is there if and only if four bytes are, and it is what it encodes. -/
theorem readCell_eq_some_iff {bytes rest : List UInt8} {v : Nat} :
    readCell bytes = some (v, rest) ↔ v < 2 ^ 32 ∧ bytes = cell v ++ rest := by
  constructor
  · intro read
    unfold readCell at read
    split at read
    next whole =>
      have four : (bytes.take 4).length = 4 := List.length_take_of_le whole
      obtain ⟨rfl, rfl⟩ := Prod.mk.inj (Option.some.inj read)
      have bound := LittleEndian.decode_lt (bytes.take 4).reverse
      have back := BigEndian.encode_decode (bytes.take 4)
      rw [List.length_reverse, four] at bound
      rw [four] at back
      exact ⟨bound, by rw [cell, back, List.take_append_drop]⟩
    · cases read
  · rintro ⟨fits, rfl⟩
    exact readCell_cell fits rest

/-- Counting on from the first interrupt of a kind must not leave 32 bits. -/
theorem counted_eq_some_iff (number : Nat) (base intid : UInt32) :
    (if number + base.toNat < 0x1_0000_0000 then some (UInt32.ofNat (number + base.toNat))
      else none) = some intid ↔ intid.toNat = number + base.toNat := by
  have bound := intid.toNat_lt
  split
  next fits =>
    rw [Option.some.injEq, ← UInt32.toNat_inj, UInt32.toNat_ofNat', Nat.mod_eq_of_lt fits]
    exact eq_comm
  next large =>
    constructor
    · intro impossible
      cases impossible
    · intro counted
      omega

theorem decodeInterrupt_eq_some_iff {value : List UInt8} {intid : UInt32} :
    decodeInterrupt value = some intid ↔ Specifies value intid := by
  constructor
  · intro decoded
    unfold decodeInterrupt at decoded
    -- All three cells have to be there before the kind is looked at.
    split at decoded
    · cases decoded
    next kind behindKind first =>
    split at decoded
    · cases decoded
    next number behindNumber second =>
    split at decoded
    · cases decoded
    next flags rest third =>
    obtain ⟨_, rfl⟩ := readCell_eq_some_iff.mp first
    obtain ⟨numberFits, rfl⟩ := readCell_eq_some_iff.mp second
    obtain ⟨flagsFit, rfl⟩ := readCell_eq_some_iff.mp third
    have numberWord := UInt32.toNat_ofNat_of_lt' numberFits
    have flagsWord := UInt32.toNat_ofNat_of_lt' flagsFit
    split at decoded
    · have counted := (counted_eq_some_iff _ _ _).mp decoded
      rw [← numberWord, ← flagsWord]
      exact .sharedPeripheral _ _ _ (numberWord.symm ▸ counted)
    · have counted := (counted_eq_some_iff _ _ _).mp decoded
      rw [← numberWord, ← flagsWord]
      exact .privatePeripheral _ _ _ (numberWord.symm ▸ counted)
    · cases decoded
  · intro specifies
    cases specifies with
    | sharedPeripheral number flags rest counted =>
      have kind : (0 : Nat) < 2 ^ 32 := by decide
      simp only [decodeInterrupt, readCell_cell kind, readCell_cell number.toNat_lt,
        readCell_cell flags.toNat_lt]
      exact (counted_eq_some_iff _ _ _).mpr counted
    | privatePeripheral number flags rest counted =>
      have kind : (1 : Nat) < 2 ^ 32 := by decide
      simp only [decodeInterrupt, readCell_cell kind, readCell_cell number.toNat_lt,
        readCell_cell flags.toNat_lt]
      exact (counted_eq_some_iff _ _ _).mpr counted

/-! ### Places -/

namespace Node

/-- The node describes a device at a place. Without a size it takes as much as one of the bank. -/
structure Yields (n : Node) (s : Slot) : Prop where
  registers : ∃ region, n.reg = some region ∧ s.base = region.address ∧
    s.size = region.size.getD 0x200
  interrupt : ∃ value, n.property "interrupts" = some value ∧ Specifies value s.intid

/-- What a device node lacks. Its interrupt counts only if its registers are there. -/
inductive Lacks (n : Node) : TreeError → Prop
  | registers (absent : n.reg = none) : Lacks n .missingReg
  | interrupt (present : n.reg ≠ none)
    (absent : ∀ value intid, n.property "interrupts" = some value → ¬ Specifies value intid) :
    Lacks n .missingInterrupt

variable {n : Node}

/-- The interrupt of a node, if one can be decoded. -/
def interrupt? (n : Node) : Option UInt32 :=
  (n.property "interrupts").bind decodeInterrupt

theorem interrupt?_eq_some_iff {intid : UInt32} :
    n.interrupt? = some intid ↔
      ∃ value, n.property "interrupts" = some value ∧ Specifies value intid := by
  simp only [interrupt?, Option.bind_eq_some_iff, decodeInterrupt_eq_some_iff]

theorem interrupt?_eq_none_iff :
    n.interrupt? = none ↔
      ∀ value intid, n.property "interrupts" = some value → ¬ Specifies value intid := by
  simp only [Option.eq_none_iff_forall_ne_some, ne_eq, interrupt?_eq_some_iff, not_exists, not_and]
  exact forall_comm

/-- A node with an entry for its registers has a place if and only if it has an interrupt. -/
theorem slot_of_reg {region : Region} (read : n.reg = some region) :
    n.slot =
      match n.interrupt? with
      | none => .error .missingInterrupt
      | some intid => .ok ⟨region.address, region.size.getD Board.bankStride, intid⟩ := by
  rw [slot, read]
  rfl

theorem slot_eq_ok_iff {s : Slot} : n.slot = .ok s ↔ n.Yields s := by
  constructor
  · intro done
    cases read : n.reg with
    | none =>
      rw [slot, read] at done
      cases done
    | some region =>
      rw [slot_of_reg read] at done
      cases interrupt : n.interrupt? with
      | none =>
        rw [interrupt] at done
        cases done
      | some intid =>
        rw [interrupt] at done
        cases done
        exact ⟨⟨region, read, rfl, rfl⟩, interrupt?_eq_some_iff.mp interrupt⟩
  · rintro ⟨⟨region, read, base, size⟩, interrupt⟩
    have stride : region.size.getD Board.bankStride = s.size := size.symm
    rw [slot_of_reg read, interrupt?_eq_some_iff.mpr interrupt, ← base, stride]

theorem slot_eq_error_iff {e : TreeError} : n.slot = .error e ↔ n.Lacks e := by
  constructor
  · intro failed
    cases read : n.reg with
    | none =>
      rw [slot, read] at failed
      cases failed
      exact .registers read
    | some region =>
      rw [slot_of_reg read] at failed
      cases interrupt : n.interrupt? with
      | none =>
        rw [interrupt] at failed
        cases failed
        exact .interrupt (by rw [read]; exact Option.some_ne_none _)
          (interrupt?_eq_none_iff.mp interrupt)
      | some intid =>
        rw [interrupt] at failed
        cases failed
  · intro lacks
    cases lacks with
    | registers absent => rw [slot, absent]
    | interrupt present absent =>
      obtain ⟨region, read⟩ := Option.ne_none_iff_exists'.mp present
      rw [slot_of_reg read, interrupt?_eq_none_iff.mpr absent]

/-- A node yields a place or lacks something. -/
theorem not_lacks_iff : (∀ e, ¬ n.Lacks e) ↔ ∃ s, n.Yields s := by
  simp only [← slot_eq_ok_iff, ← slot_eq_error_iff]
  cases n.slot with
  | error e => simp
  | ok s => simp

end Node

/-! ### Trees -/

section SlotsOf

variable {n : Node} {nodes : List Node} {places : List Slot} {e : TreeError}

theorem slotsOf_cons_eq_ok_iff :
    slotsOf (n :: nodes) = .ok places ↔
      ∃ s others, n.Yields s ∧ slotsOf nodes = .ok others ∧ places = s :: others := by
  simp only [slotsOf, ← Node.slot_eq_ok_iff]
  cases n.slot with
  | error e => simp
  | ok s =>
    cases slotsOf nodes with
    | error e => simp
    | ok others => simp [eq_comm]

theorem slotsOf_cons_eq_error_iff :
    slotsOf (n :: nodes) = .error e ↔
      n.Lacks e ∨ (∃ s, n.Yields s) ∧ slotsOf nodes = .error e := by
  simp only [slotsOf, ← Node.slot_eq_ok_iff, ← Node.slot_eq_error_iff]
  cases n.slot with
  | error e => simp
  | ok s =>
    cases slotsOf nodes with
    | error e => simp
    | ok others => simp

theorem slotsOf_eq_ok_iff : slotsOf nodes = .ok places ↔ List.Forall₂ Node.Yields nodes places := by
  induction nodes generalizing places with
  | nil => simp [slotsOf, eq_comm]
  | cons n nodes ih =>
    rw [slotsOf_cons_eq_ok_iff, List.forall₂_cons_left_iff]
    simp only [ih]

/-- The first node that lacks something decides. -/
theorem slotsOf_eq_error_iff :
    slotsOf nodes = .error e ↔
      ∃ before n after, nodes = before ++ n :: after ∧ (∀ m ∈ before, ∃ s, m.Yields s) ∧
        n.Lacks e := by
  induction nodes with
  | nil => simp [slotsOf]
  | cons n nodes ih =>
    rw [slotsOf_cons_eq_error_iff, ih]
    constructor
    · rintro (lacks | ⟨yields, before, m, after, rfl, sound, lacks⟩)
      · exact ⟨[], n, nodes, rfl, List.forall_mem_nil _, lacks⟩
      · exact ⟨n :: before, m, after, rfl, List.forall_mem_cons.mpr ⟨yields, sound⟩, lacks⟩
    · rintro ⟨before, m, after, split, sound, lacks⟩
      cases before with
      | nil =>
        cases split
        exact .inl lacks
      | cons first before =>
        cases split
        obtain ⟨yields, sound⟩ := List.forall_mem_cons.mp sound
        exact .inr ⟨yields, before, m, after, rfl, sound, lacks⟩

/-- All places are found if and only if every node yields one. -/
theorem exists_slotsOf_iff :
    (∃ places, slotsOf nodes = .ok places) ↔ ∀ n ∈ nodes, ∃ s, n.Yields s := by
  induction nodes with
  | nil => simp [slotsOf]
  | cons n nodes ih =>
    rw [List.forall_mem_cons, ← ih]
    constructor
    · rintro ⟨places, found⟩
      obtain ⟨s, others, yields, rest, _⟩ := slotsOf_cons_eq_ok_iff.mp found
      exact ⟨⟨s, yields⟩, others, rest⟩
    · rintro ⟨⟨s, yields⟩, others, rest⟩
      exact ⟨_, slotsOf_cons_eq_ok_iff.mpr ⟨s, others, yields, rest, rfl⟩⟩

end SlotsOf

/-- The nodes that describe devices, in the order of the walk. -/
def devices (nodes : List Node) : List Node :=
  nodes.filter (·.isCompatible deviceCompatible)

theorem Node.isCompatible_iff (n : Node) (name : String) :
    n.isCompatible name = true ↔ ∃ names, n.compatible = some names ∧ name ∈ names := by
  unfold isCompatible
  cases n.compatible with
  | none => simp
  | some names => simp

/-- Places sorted by address, each address with its places in the order they had before. -/
structure SortedPlaces (places found : List Slot) : Prop where
  perm : found.Perm places
  increasing : found.Pairwise fun a b => a.base ≤ b.base
  stable : ∀ base, found.filter (·.base = base) = places.filter (·.base = base)

theorem sortedPlaces_mergeSort (places : List Slot) :
    SortedPlaces places (places.mergeSort fun a b => a.base ≤ b.base) where
  perm := List.mergeSort_perm _ _
  increasing := (List.pairwise_mergeSort base_le_trans base_le_total places).imp of_decide_eq_true
  stable := filter_mergeSort places

section Slots

variable {r : Reader} {bytes : List UInt8} {nodes : List Node}

theorem slots_eq_error_iff (accepted : r.nodes? bytes = some nodes) {e : TreeError} :
    slots r bytes = .error e ↔ slotsOf (devices nodes) = .error e := by
  simp only [slots, accepted, devices]
  cases slotsOf (nodes.filter (·.isCompatible deviceCompatible)) with
  | error e => simp
  | ok found => simp

theorem slots_of_slotsOf (accepted : r.nodes? bytes = some nodes) {places : List Slot}
    (found : slotsOf (devices nodes) = .ok places) :
    slots r bytes = .ok (places.mergeSort fun a b => a.base ≤ b.base) := by
  rw [devices] at found
  simp only [slots, accepted, found]

/-- What is found is sorted, whatever the blob is. -/
theorem increasing_of_slots {found : List Slot} (done : slots r bytes = .ok found) :
    found.Pairwise fun a b => a.base ≤ b.base := by
  cases accepted : r.nodes? bytes with
  | none =>
    rw [slots, accepted] at done
    cases done
  | some nodes =>
    cases places : slotsOf (devices nodes) with
    | error e =>
      rw [(slots_eq_error_iff accepted).mpr places] at done
      cases done
    | ok places' =>
      rw [slots_of_slotsOf accepted places] at done
      cases done
      exact (sortedPlaces_mergeSort places').increasing

theorem slotsOrBank_of_slots {found : List Slot} (done : slots r bytes = .ok found)
    (some : found ≠ []) : slotsOrBank r (.some bytes) = found := by
  rw [slotsOrBank, done]
  cases found with
  | nil => exact absurd rfl some
  | cons s rest => rfl

theorem slotsOrBank_of_not {optional : Option (List UInt8)}
    (none : ∀ b found, optional = some b → slots r b = .ok found → found = []) :
    slotsOrBank r optional = Board.bank := by
  cases optional with
  | none => rfl
  | some b =>
    rw [slotsOrBank]
    cases done : slots r b with
    | error e => rfl
    | ok found => rw [none b found rfl done]

end Slots

theorem bank_eq : Board.bank = (List.range 32).map fun i =>
    ⟨.ofNat (0xa000000 + 0x200 * i), 0x200, .ofNat (48 + i)⟩ := by
  decide

theorem increasing_bank : Board.bank.Pairwise fun a b => a.base ≤ b.base := by
  decide

/-- The search for devices gives all places or none, with every reader. A blob that the reader
accepts is judged by those of its nodes that are compatible with `virtio,mmio`, in the order of the
walk: if one of them lacks the entry of its registers or an interrupt, the first such node decides
the error, and if each yields a place, the search succeeds with one place for each node, sorted by
address, those with one address in the order of the walk. The default bank of 32 places stands in
for a blob that is missing, is refused, or describes no device, so there are always places, and they
are always sorted. -/
theorem slots_all_or_nothing (r : Reader) :
    (∀ bytes nodes, r.nodes? bytes = some nodes →
      (∀ n ∈ nodes,
        n ∈ devices nodes ↔ ∃ names, n.compatible = some names ∧ "virtio,mmio" ∈ names) ∧
      (∀ e, slots r bytes = .error e ↔
        ∃ before n after, devices nodes = before ++ n :: after ∧
          (∀ m ∈ before, ∀ e', ¬ m.Lacks e') ∧ n.Lacks e) ∧
      ((∃ n ∈ devices nodes, ∃ e, n.Lacks e) → ∃ e, slots r bytes = .error e) ∧
      ((∀ n ∈ devices nodes, ∀ e, ¬ n.Lacks e) →
        ∃ found places, slots r bytes = .ok found ∧
          List.Forall₂ Node.Yields (devices nodes) places ∧ SortedPlaces places found)) ∧
    ∀ optional : Option (List UInt8),
      (∀ b found, optional = some b → slots r b = .ok found → found ≠ [] →
        slotsOrBank r optional = found) ∧
      ((∀ b found, optional = some b → slots r b = .ok found → found = []) →
        slotsOrBank r optional = (List.range 32).map fun i =>
          ⟨.ofNat (0xa000000 + 0x200 * i), 0x200, .ofNat (48 + i)⟩) ∧
      slotsOrBank r optional ≠ [] ∧
      (slotsOrBank r optional).Pairwise fun a b => a.base ≤ b.base := by
  constructor
  · intro bytes nodes accepted
    refine ⟨fun n member => ?_, fun e => ?_, ?_, fun sound => ?_⟩
    · rw [devices, List.mem_filter, and_iff_right member]
      exact n.isCompatible_iff deviceCompatible
    · simp only [slots_eq_error_iff accepted, slotsOf_eq_error_iff, Node.not_lacks_iff]
    · rintro ⟨n, member, e, lacks⟩
      cases found : slotsOf (devices nodes) with
      | error e' => exact ⟨e', (slots_eq_error_iff accepted).mpr found⟩
      -- Success would mean that every device yields a place, also the one that lacks something.
      | ok places =>
        have yields := exists_slotsOf_iff.mp ⟨places, found⟩ n member
        exact absurd lacks (Node.not_lacks_iff.mpr yields e)
    · simp only [Node.not_lacks_iff] at sound
      obtain ⟨places, found⟩ := exists_slotsOf_iff.mpr sound
      exact ⟨_, places, slots_of_slotsOf accepted found, slotsOf_eq_ok_iff.mp found,
        sortedPlaces_mergeSort places⟩
  · intro optional
    refine ⟨?_, fun none => ?_, ?_⟩
    · rintro b found rfl done some
      exact slotsOrBank_of_slots done some
    · rw [slotsOrBank_of_not none, bank_eq]
    -- Both sources of places, what was found and the default bank, are sorted and not empty.
    · by_cases none : ∀ b found, optional = some b → slots r b = .ok found → found = []
      · rw [slotsOrBank_of_not none]
        exact ⟨by decide, increasing_bank⟩
      · simp only [not_forall, exists_prop] at none
        obtain ⟨b, found, rfl, done, some⟩ := none
        rw [slotsOrBank_of_slots done some]
        exact ⟨some, increasing_of_slots done⟩

/-! A tree of three devices: the second has too short an interrupt specifier, and the third has no
registers. -/

def soundLeaf : Leaf :=
  deviceNode "virtio_mmio@a000200" ⟨0xa000200, 0x200, false, 17⟩

def hastyLeaf : Leaf where
  name := utf8 "virtio_mmio@a000000"
  properties := [⟨utf8 "compatible", utf8 deviceCompatible ++ [0]⟩,
    ⟨utf8 "reg", cell 0 ++ cell 0xa000000 ++ cell 0 ++ cell 0x200⟩,
    ⟨utf8 "interrupts", cell 0 ++ cell 16⟩]

def bareLeaf : Leaf where
  name := utf8 "virtio_mmio@a000400"
  properties := [⟨utf8 "compatible", utf8 deviceCompatible ++ [0]⟩]

def flawedTree : List UInt8 :=
  write sampleRoot [soundLeaf, hastyLeaf, bareLeaf]

theorem flawedTree_refused :
    slots Flat.reader flawedTree = .error .missingInterrupt ∧
      (slotsOrBank Flat.reader (some flawedTree)).length = 32 := by
  let inTree (n : Leaf) : Node := Flat.answer (n.under (some sampleRoot.properties))
  let root : Node := Flat.answer (sampleRoot.under none)
  have accepted : Flat.reader.nodes? flawedTree =
      some [root, inTree soundLeaf, inTree hastyLeaf, inTree bareLeaf] := by
    have stanzas : (Flat.Blob.ofBytes? flawedTree).map Flat.Blob.stanzas = some
        (sampleRoot.under none :: [soundLeaf, hastyLeaf, bareLeaf].map fun n =>
          n.under (some sampleRoot.properties)) := by
      decide +kernel
    obtain ⟨blob, parsed, stanzas⟩ := Option.map_eq_some_iff.mp stanzas
    rw [Flat.reader_nodes?, parsed, Option.map_some, stanzas]
    rfl
  have kept : devices [root, inTree soundLeaf, inTree hastyLeaf, inTree bareLeaf] =
      [inTree soundLeaf] ++ inTree hastyLeaf :: [inTree bareLeaf] := by
    have compatible : root.isCompatible deviceCompatible = false ∧
        (inTree soundLeaf).isCompatible deviceCompatible = true ∧
        (inTree hastyLeaf).isCompatible deviceCompatible = true ∧
        (inTree bareLeaf).isCompatible deviceCompatible = true := by
      decide +kernel
    simp [devices, compatible]
  have first : (inTree soundLeaf).Yields ⟨0xa000200, 0x200, 49⟩ :=
    Node.slot_eq_ok_iff.mp (by decide +kernel)
  have second : (inTree hastyLeaf).Lacks .missingInterrupt :=
    Node.slot_eq_error_iff.mp (by decide +kernel)
  obtain ⟨judged, chosen⟩ := slots_all_or_nothing Flat.reader
  obtain ⟨_, errors, _⟩ := judged _ _ accepted
  obtain ⟨_, bank, _⟩ := chosen (some flawedTree)
  have before := Node.not_lacks_iff.mpr ⟨_, first⟩
  have refused : slots Flat.reader flawedTree = .error .missingInterrupt :=
    (errors _).mpr ⟨_, _, _, kept, List.forall_mem_singleton.mpr before, second⟩
  refine ⟨refused, ?_⟩
  rw [bank]
  · rfl
  · rintro b found ⟨⟩ done
    rw [refused] at done
    cases done

end VirtioMmio.DeviceTree
