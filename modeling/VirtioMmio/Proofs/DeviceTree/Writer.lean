import VirtioMmio.Proofs.DeviceTree.Rules

/-!
A writer of flattened device trees: the structure block and the strings block grow side by side,
each property puts its name into the strings, and the header is written last. Main result:
`write_eq`, what is in a blob after all.
-/

namespace VirtioMmio.DeviceTree

/-! ### Padding -/

/-- The zeros that fill up some bytes to a whole cell. -/
def zeros (bytes : List UInt8) : List UInt8 :=
  List.replicate (padded bytes.length - bytes.length) 0

theorem pads_zeros (bytes : List UInt8) : Pads (zeros bytes) bytes :=
  List.length_replicate

def pad (bytes : List UInt8) : List UInt8 :=
  bytes ++ zeros bytes

theorem four_dvd_length_pad (bytes : List UInt8) : 4 ∣ (pad bytes).length := by
  have le := le_padded bytes.length
  have length : (pad bytes).length = padded bytes.length := by
    simp only [pad, zeros, List.length_append, List.length_replicate]
    omega
  rw [length]
  exact ⟨(bytes.length + 3) / 4, Nat.mul_comm _ _⟩

/-- What is whole already is not padded again. -/
theorem pad_append {front : List UInt8} (aligned : 4 ∣ front.length) (bytes : List UInt8) :
    pad (front ++ bytes) = front ++ pad bytes := by
  have same : padded (front ++ bytes).length - (front ++ bytes).length =
      padded bytes.length - bytes.length := by
    rw [List.length_append]
    unfold padded
    omega
  rw [pad, zeros, same, List.append_assoc, pad, zeros]

/-! ### Writing -/

/-- A node without children. -/
structure Leaf where
  name : List UInt8
  properties : List Property
  deriving DecidableEq, Repr

structure Writer where
  structs : List UInt8 := []
  strings : List UInt8 := []
  deriving DecidableEq, Repr

namespace Writer

def word (w : Writer) (v : Nat) : Writer :=
  { w with structs := w.structs ++ cell v }

/-- Bytes into the structure block, which is padded behind them. -/
def bytes (w : Writer) (bytes : List UInt8) : Writer :=
  { w with structs := pad (w.structs ++ bytes) }

def beginNode (w : Writer) (name : List UInt8) : Writer :=
  (w.word 1).bytes (name ++ [0])

/-- A property, its name at the end of the strings even if it is there already. -/
def property (w : Writer) (p : Property) : Writer :=
  let named := { w with strings := w.strings ++ p.name ++ [0] }
  (((named.word 3).word p.value.length).word w.strings.length).bytes p.value

def endNode (w : Writer) : Writer :=
  w.word 2

def leaf (w : Writer) (n : Leaf) : Writer :=
  (n.properties.foldl property (w.beginNode n.name)).endNode

/-- The blob: header, an empty reservation map of 16 bytes, structure block, strings block. The code
at the end of the structure block is one that ends a tree in version 17 of the format. -/
def finish (w : Writer) : List UInt8 :=
  let w := w.word 9
  let bodyOffset := headerBytes + 16
  let stringsOffset := bodyOffset + w.structs.length
  [magic, stringsOffset + w.strings.length, bodyOffset, stringsOffset, headerBytes, 17, 16, 0,
      w.strings.length, w.structs.length].flatMap cell ++
    List.replicate 16 0 ++ w.structs ++ w.strings

end Writer

/-- The blob of a tree of a root and nodes under it. -/
def write (root : Leaf) (leaves : List Leaf) : List UInt8 :=
  let opened := root.properties.foldl Writer.property (({} : Writer).beginNode root.name)
  (leaves.foldl Writer.leaf opened).endNode.finish

/-! ### Blocks -/

/-- The names of properties as they stand in the strings block. -/
def nameTable (properties : List Property) : List UInt8 :=
  properties.flatMap fun p => p.name ++ [0]

theorem nameTable_cons (p : Property) (properties : List Property) :
    nameTable (p :: properties) = p.name ++ [0] ++ nameTable properties := rfl

/-- Properties whose names begin at a place in the strings block. -/
def propertyBytes (place : Nat) : List Property → List UInt8
  | [] => []
  | p :: properties =>
    cell 3 ++ (cell p.value.length ++ (cell place ++ pad p.value)) ++
      propertyBytes (place + (p.name.length + 1)) properties

/-- A node up to the tokens inside it that are no properties. -/
def openingBytes (place : Nat) (n : Leaf) : List UInt8 :=
  cell 1 ++ pad (n.name ++ [0]) ++ propertyBytes place n.properties

def leafBytes (place : Nat) : List Leaf → List UInt8
  | [] => []
  | n :: leaves =>
    openingBytes place n ++ cell 2 ++ leafBytes (place + (nameTable n.properties).length) leaves

/-- The structure block of a whole tree. -/
def treeBytes (root : Leaf) (leaves : List Leaf) : List UInt8 :=
  openingBytes 0 root ++ leafBytes (nameTable root.properties).length leaves ++ cell 2 ++ cell 9

/-- The strings block of a whole tree. -/
def treeStrings (root : Leaf) (leaves : List Leaf) : List UInt8 :=
  nameTable root.properties ++ leaves.flatMap fun n => nameTable n.properties

/-- The numbers in the header of a blob with blocks of given lengths. -/
def headerNumbers (body strings : Nat) : List Nat :=
  [magic, 56 + body + strings, 56, 56 + body, headerBytes, 17, 16, 0, strings, body]

/-- A blob with given blocks. -/
def assemble (body strings : List UInt8) : List UInt8 :=
  (headerNumbers body.length strings.length).flatMap cell ++
    List.replicate 16 0 ++ body ++ strings

namespace Writer

/-- What a writer has put into its blocks. It is always at the end of a cell. -/
structure Holds (w : Writer) (body names : List UInt8) : Prop where
  structs : w.structs = body
  strings : w.strings = names
  aligned : 4 ∣ body.length

namespace Holds

variable {w : Writer} {body names : List UInt8}

theorem bytes (holds : w.Holds body names) (more : List UInt8) :
    (w.bytes more).Holds (body ++ pad more) names where
  structs := by
    rw [← holds.structs, Writer.bytes, pad_append (holds.structs ▸ holds.aligned)]
  strings := holds.strings
  aligned := by
    rw [List.length_append]
    exact (Nat.dvd_add_right holds.aligned).mpr (four_dvd_length_pad more)

theorem word (holds : w.Holds body names) (v : Nat) :
    (w.word v).Holds (body ++ cell v) names where
  structs := by rw [← holds.structs, Writer.word]
  strings := holds.strings
  aligned := by
    have before := holds.aligned
    rw [List.length_append, length_cell]
    omega

theorem property (holds : w.Holds body names) (p : Property) :
    (w.property p).Holds
      (body ++ (cell 3 ++ (cell p.value.length ++ (cell names.length ++ pad p.value))))
      (names ++ (p.name ++ [0])) := by
  obtain ⟨rfl, rfl, aligned⟩ := holds
  have named : ({ w with strings := w.strings ++ p.name ++ [0] } : Writer).Holds w.structs
      (w.strings ++ (p.name ++ [0])) :=
    ⟨rfl, List.append_assoc _ _ _, aligned⟩
  have written : (w.property p).Holds _ _ :=
    (((named.word 3).word p.value.length).word w.strings.length).bytes p.value
  simpa only [List.append_assoc] using written

theorem properties (holds : w.Holds body names) (properties : List Property) :
    (properties.foldl Writer.property w).Holds (body ++ propertyBytes names.length properties)
      (names ++ nameTable properties) := by
  induction properties generalizing w body names with
  | nil => simpa [propertyBytes, nameTable] using holds
  | cons p properties ih =>
    have rest := ih (holds.property p)
    rw [List.length_append, List.length_append, List.length_singleton] at rest
    simpa only [List.foldl_cons, propertyBytes, nameTable_cons, List.append_assoc] using rest

theorem opening (holds : w.Holds body names) (n : Leaf) :
    (n.properties.foldl Writer.property (w.beginNode n.name)).Holds
      (body ++ openingBytes names.length n) (names ++ nameTable n.properties) := by
  have inside := ((holds.word 1).bytes (n.name ++ [0])).properties n.properties
  simpa only [Writer.beginNode, openingBytes, List.append_assoc] using inside

theorem leaf (holds : w.Holds body names) (n : Leaf) :
    (w.leaf n).Holds (body ++ (openingBytes names.length n ++ cell 2))
      (names ++ nameTable n.properties) := by
  have ended := (holds.opening n).word 2
  rw [List.append_assoc] at ended
  exact ended

theorem leaves (holds : w.Holds body names) (leaves : List Leaf) :
    (leaves.foldl Writer.leaf w).Holds (body ++ leafBytes names.length leaves)
      (names ++ leaves.flatMap fun n => nameTable n.properties) := by
  induction leaves generalizing w body names with
  | nil => simpa [leafBytes] using holds
  | cons n leaves ih =>
    have rest := ih (holds.leaf n)
    rw [List.length_append] at rest
    simpa only [List.foldl_cons, leafBytes, List.flatMap_cons, List.append_assoc] using rest

theorem finish (holds : w.Holds body names) : w.finish = assemble (body ++ cell 9) names := by
  obtain ⟨rfl, rfl, _⟩ := holds
  rfl

end Holds

end Writer

/-- A blob is its header, the structure block of the tree, and the names. -/
theorem write_eq (root : Leaf) (leaves : List Leaf) :
    write root leaves = assemble (treeBytes root leaves) (treeStrings root leaves) := by
  have start : ({} : Writer).Holds [] [] := ⟨rfl, rfl, Nat.dvd_zero 4⟩
  exact (((start.opening root).leaves leaves).word 2).finish

end VirtioMmio.DeviceTree
