import Mathlib.Algebra.Group.Nat.Defs
import Mathlib.Data.List.Forall2
import VirtioMmio.DeviceTree.Format
import VirtioMmio.DeviceTree.Reader

/-!
The rules by which a reader of flattened device trees goes: where the blocks of a blob are, which
nodes a structure block holds in which order, and what a node answers. The rules say nothing of
blobs that are not well formed, and a reader may do there what it likes. `Reader.Follows` is what
can be asked of a reader.
-/

namespace VirtioMmio.DeviceTree

open BigEndian (readCell)

/-! ### Cells -/

/-- A number as one cell of four bytes. -/
def cell (v : Nat) : List UInt8 :=
  BigEndian.encode 4 v

@[simp] theorem length_cell (v : Nat) : (cell v).length = 4 :=
  BigEndian.length_encode 4 v

theorem decode_cell {v : Nat} (fits : v < 2 ^ 32) : BigEndian.decode (cell v) = v := by
  rw [cell, BigEndian.decode_encode]
  exact Nat.mod_eq_of_lt fits

theorem readCell_cell {v : Nat} (fits : v < 2 ^ 32) (rest : List UInt8) :
    readCell (cell v ++ rest) = some (v, rest) := by
  have whole : 4 ≤ (cell v ++ rest).length := by simp
  rw [readCell, if_pos whole, List.take_left' (length_cell v), List.drop_left' (length_cell v),
    decode_cell fits]

theorem le_padded (n : Nat) : n ≤ padded n := by
  unfold padded
  omega

/-! ### Blocks -/

/-- The header of a blob says where its structure block and its strings block are. -/
structure Carries (bytes body strings : List UInt8) : Prop where
  header : headerBytes ≤ bytes.length
  marked : headerCell bytes 0 = magic
  whole : headerCell bytes 1 ≤ bytes.length
  bodyInside : headerCell bytes 2 + headerCell bytes 9 ≤ bytes.length
  body : slice bytes (headerCell bytes 2) (headerCell bytes 9) = body
  stringsInside : headerCell bytes 3 + headerCell bytes 8 ≤ bytes.length
  strings : slice bytes (headerCell bytes 3) (headerCell bytes 8) = strings

/-! ### Nodes -/

/-- A name of ASCII bytes without a zero byte. -/
def IsName (name : List UInt8) : Prop :=
  ∀ b ∈ name, b ≠ 0 ∧ b < 128

instance (name : List UInt8) : Decidable (IsName name) :=
  inferInstanceAs (Decidable (∀ b ∈ name, b ≠ 0 ∧ b < 128))

/-- The name that ends with the first zero byte behind a place in the strings block. -/
structure NameAt (strings : List UInt8) (place : Nat) (name : List UInt8) : Prop where
  isName : IsName name
  fits : place < 2 ^ 32
  found : ∃ before after, strings = before ++ (name ++ 0 :: after) ∧ before.length = place

/-- What stands behind some bytes up to a whole cell. It may be anything. -/
def Pads (padding bytes : List UInt8) : Prop :=
  padding.length = padded bytes.length - bytes.length

/-- The properties in front of some bytes, and the bytes behind them. They go up to the first token
of another code; where that is a no-operation the rules do not say what is next. -/
inductive Lists (strings : List UInt8) : List UInt8 → List Property → List UInt8 → Prop
  | done {code : Nat} (rest : List UInt8) (fits : code < 2 ^ 32) (other : code ≠ 3 ∧ code ≠ 4) :
    Lists strings (cell code ++ rest) [] (cell code ++ rest)
  | property {place : Nat} {p : Property} {padding rest after : List UInt8}
    {properties : List Property} (name : NameAt strings place p.name)
    (short : p.value.length < 2 ^ 32) (pads : Pads padding p.value)
    (others : Lists strings rest properties after) :
    Lists strings
      (cell 3 ++ (cell p.value.length ++ (cell place ++ (p.value ++ (padding ++ rest)))))
      (p :: properties) after

/-- The nodes in front of some bytes, in the order in which they begin, never more than `depth` of
them open at once. The list in front of the bytes holds the properties of the nodes that are open
already, innermost first. -/
inductive Walk (strings : List UInt8) (depth : Nat) :
    List (List Property) → List UInt8 → List Stanza → Prop
  -- A node begins: its name, its properties, and whatever follows inside it or behind it.
  | node {ancestors : List (List Property)} {name padding bytes after : List UInt8}
    {properties : List Property} {stanzas : List Stanza} (shallow : ancestors.length < depth)
    (isName : IsName name) (pads : Pads padding (name ++ [0]))
    (lists : Lists strings bytes properties after)
    (walk : Walk strings depth (properties :: ancestors) after stanzas) :
    Walk strings depth ancestors (cell 1 ++ (name ++ 0 :: (padding ++ bytes)))
      (⟨properties, ancestors.head?⟩ :: stanzas)
  -- The innermost open node ends.
  | leave {properties : List Property} {ancestors : List (List Property)} {rest : List UInt8}
    {stanzas : List Stanza} (walk : Walk strings depth ancestors rest stanzas) :
    Walk strings depth (properties :: ancestors) (cell 2 ++ rest) stanzas
  -- Any other token ends the walk. Behind a no-operation the rules do not say what is next.
  | stop {ancestors : List (List Property)} {code : Nat} (rest : List UInt8)
    (fits : code < 2 ^ 32) (other : code ≠ 1 ∧ code ≠ 2 ∧ code ≠ 4) :
    Walk strings depth ancestors (cell code ++ rest) []

/-! ### Answers -/

/-- The number of cells that properties lay down: that in the first cell of the last property with
the name, or a standard one if there is none. -/
inductive LaysDown (properties : List Property) (name : String) (standard : Nat) : Nat → Prop
  | standard (absent : lastValue properties name = none) :
    LaysDown properties name standard standard
  | own {cells : Nat} (rest : List UInt8) (fits : cells < 2 ^ 32)
    (whole : ∀ p ∈ properties, p.name = utf8 name → 4 ≤ p.value.length)
    (value : lastValue properties name = some (cell cells ++ rest)) :
    LaysDown properties name standard cells

/-- A `reg` value begins with an address of one or two cells and a size of at most two. A size
without cells is absent. -/
structure BeginsWith (value : List UInt8) (addressCells sizeCells : Nat) (region : Region) :
    Prop where
  addressFits : 1 ≤ addressCells ∧ addressCells ≤ 2
  sizeFits : sizeCells ≤ 2
  parts : ∃ address size rest, value = address ++ (size ++ rest) ∧
    address.length = 4 * addressCells ∧ size.length = 4 * sizeCells ∧
    region.address = .ofNat (BigEndian.decode address) ∧
    region.size = if sizeCells = 0 then none else some (.ofNat (BigEndian.decode size))

/-- What a node answers if a tree says some things of it. -/
structure Answers (s : Stanza) (n : Node) : Prop where
  property (name : String) : n.property name = firstValue s.properties name
  compatible : n.compatible = (lastValue s.properties "compatible").map stringsOf
  reg {addressCells sizeCells : Nat} {value : List UInt8} {region : Region}
    (addresses : LaysDown (s.parent.getD []) "#address-cells" 2 addressCells)
    (sizes : LaysDown (s.parent.getD []) "#size-cells" 1 sizeCells)
    (found : firstValue s.properties "reg" = some value)
    (begins : BeginsWith value addressCells sizeCells region) : n.reg = some region

/-- A reader goes by the rules wherever they say anything, in trees that are at most `depth` nodes
deep: it accepts such a blob, and it finds its nodes with their answers. -/
structure Reader.Follows (r : Reader) (depth : Nat) : Prop where
  nodes {bytes body strings : List UInt8} {stanzas : List Stanza}
    (carries : Carries bytes body strings) (walk : Walk strings depth [] body stanzas) :
    ∃ nodes, r.nodes? bytes = some nodes ∧ List.Forall₂ Answers stanzas nodes

end VirtioMmio.DeviceTree
