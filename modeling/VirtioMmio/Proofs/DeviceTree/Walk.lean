import VirtioMmio.Proofs.DeviceTree.Writer

/-!
The nodes of a tree that was written, by the rules of the format: the header leads to both blocks,
the properties of a node end where its children begin or where it ends, and every end of a node
makes its parent the parent of what follows. Main result: `walk_write`.
-/

namespace VirtioMmio.DeviceTree

/-! ### Header -/

theorem headerCell_flatMap {cells : List Nat} {index v : Nat} (found : cells[index]? = some v)
    (fits : v < 2 ^ 32) (rest : List UInt8) :
    headerCell (cells.flatMap cell ++ rest) index = v := by
  induction cells generalizing index with
  | nil => simp at found
  | cons c cells ih =>
    rw [List.flatMap_cons, List.append_assoc]
    cases index with
    | zero =>
      rw [List.getElem?_cons_zero, Option.some.injEq] at found
      rw [headerCell, Nat.mul_zero, List.drop_zero, List.take_left' (length_cell c), found,
        decode_cell fits]
    | succ index =>
      rw [List.getElem?_cons_succ] at found
      have skipped : 4 * (index + 1) = 4 + 4 * index := by omega
      rw [headerCell, skipped, ← List.drop_drop, List.drop_left' (length_cell c)]
      exact ih found

theorem length_header (body strings : Nat) :
    ((headerNumbers body strings).flatMap cell ++ List.replicate 16 0).length = 56 := by
  simp [headerNumbers]

theorem length_assemble (body strings : List UInt8) :
    (assemble body strings).length = 56 + body.length + strings.length := by
  rw [assemble, List.length_append, List.length_append, length_header]

/-- The header of an assembled blob leads to its blocks. -/
theorem carries_assemble {body strings : List UInt8}
    (small : (assemble body strings).length < 2 ^ 32) :
    Carries (assemble body strings) body strings := by
  have length := length_assemble body strings
  have number (index : Nat) {v : Nat}
      (found : (headerNumbers body.length strings.length)[index]? = some v)
      (fits : v < 2 ^ 32) : headerCell (assemble body strings) index = v := by
    rw [assemble, List.append_assoc, List.append_assoc]
    exact headerCell_flatMap found fits _
  have front := length_header body.length strings.length
  have total := number 1 rfl (by omega)
  have bodyAt := number 2 rfl (by decide)
  have bodyLength := number 9 rfl (by omega)
  have stringsAt := number 3 rfl (by omega)
  have stringsLength := number 8 rfl (by omega)
  constructor
  case header =>
    rw [length, headerBytes]
    omega
  case marked => exact number 0 rfl (by decide)
  case whole => exact Nat.le_of_eq (total.trans length.symm)
  case bodyInside =>
    rw [bodyAt, bodyLength, length]
    omega
  case body =>
    rw [bodyAt, bodyLength, slice, assemble, List.append_assoc, List.drop_left' front,
      List.take_left' rfl]
  case stringsInside => exact Nat.le_of_eq (by rw [stringsAt, stringsLength, length])
  case strings =>
    rw [stringsAt, stringsLength, slice, assemble,
      List.drop_left' (by rw [List.length_append, front]), List.take_length]

/-! ### Properties -/

/-- A node whose names are names. -/
structure Leaf.Named (n : Leaf) : Prop where
  node : IsName n.name
  properties : ∀ p ∈ n.properties, IsName p.name

instance (n : Leaf) : Decidable n.Named :=
  decidable_of_iff (IsName n.name ∧ ∀ p ∈ n.properties, IsName p.name)
    ⟨fun ⟨node, properties⟩ => ⟨node, properties⟩, fun ⟨node, properties⟩ => ⟨node, properties⟩⟩

variable {strings back rest : List UInt8} {depth code : Nat}

/-- The names of properties are found where the writer put them. -/
theorem lists_propertyBytes {properties : List Property} (named : ∀ p ∈ properties, IsName p.name)
    (front : List UInt8) (table : strings = front ++ (nameTable properties ++ back))
    (fits : strings.length < 2 ^ 32)
    (small : (propertyBytes front.length properties).length < 2 ^ 32)
    (codeFits : code < 2 ^ 32) (other : code ≠ 3 ∧ code ≠ 4) :
    Lists strings (propertyBytes front.length properties ++ (cell code ++ rest)) properties
      (cell code ++ rest) := by
  -- The names of the properties so far are the front of the table, and the next name is behind it.
  induction properties generalizing front with
  | nil => exact .done rest codeFits other
  | cons p properties ih =>
    have behind : (front ++ (p.name ++ [0])).length = front.length + (p.name.length + 1) := by
      simp
    have placed : strings = front ++ (p.name ++ 0 :: (nameTable properties ++ back)) := by
      rw [table, nameTable_cons]
      simp
    have inside : front.length < 2 ^ 32 := by
      rw [table, List.length_append] at fits
      omega
    have name : NameAt strings front.length p.name :=
      ⟨named p List.mem_cons_self, inside, front, _, placed, rfl⟩
    simp only [propertyBytes, pad, List.length_append] at small
    have others := ih (fun q member => named q (List.mem_cons_of_mem _ member))
      (front ++ (p.name ++ [0])) (by rw [placed]; simp) (by rw [behind]; omega)
    have first := Lists.property name (by omega) (pads_zeros p.value) others
    rw [behind] at first
    simpa only [propertyBytes, pad, List.append_assoc] using first

/-! ### Nodes -/

/-- What is written of a leaf under a parent with some properties. -/
def Leaf.under (n : Leaf) (parent : Option (List Property)) : Stanza :=
  ⟨n.properties, parent⟩

theorem openingBytes_append (place : Nat) (n : Leaf) (rest : List UInt8) :
    openingBytes place n ++ rest =
      cell 1 ++ (n.name ++ 0 :: (zeros (n.name ++ [0]) ++
        (propertyBytes place n.properties ++ rest))) := by
  simp [openingBytes, pad]

/-- One step of the walk opens a node and takes its properties. -/
theorem walk_opening {n : Leaf} (named : n.Named) (front : List UInt8)
    (table : strings = front ++ (nameTable n.properties ++ back))
    (fits : strings.length < 2 ^ 32) (small : (openingBytes front.length n).length < 2 ^ 32)
    (codeFits : code < 2 ^ 32) (other : code ≠ 3 ∧ code ≠ 4) {ancestors : List (List Property)}
    (shallow : ancestors.length < depth) {stanzas : List Stanza}
    (inside : Walk strings depth (n.properties :: ancestors) (cell code ++ rest) stanzas) :
    Walk strings depth ancestors (openingBytes front.length n ++ (cell code ++ rest))
      (n.under ancestors.head? :: stanzas) := by
  have short : (propertyBytes front.length n.properties).length < 2 ^ 32 := by
    rw [openingBytes, List.length_append] at small
    omega
  rw [openingBytes_append]
  exact .node shallow named.node (pads_zeros _)
    (lists_propertyBytes named.properties front table fits short codeFits other) inside

/-- Leaves are found one by one, each under the root. -/
theorem walk_leaves {leaves : List Leaf} (named : ∀ n ∈ leaves, n.Named) (root : List Property)
    (front : List UInt8) (table : strings = front ++ leaves.flatMap fun n => nameTable n.properties)
    (fits : strings.length < 2 ^ 32) (small : (leafBytes front.length leaves).length < 2 ^ 32) :
    Walk strings 2 [root] (leafBytes front.length leaves ++ (cell 2 ++ cell 9))
      (leaves.map fun n => n.under (some root)) := by
  -- Every leaf ends before the next begins, so the root stays the only ancestor.
  induction leaves generalizing front with
  | nil =>
    have ended : Walk strings 2 [] (cell 9 ++ []) [] := .stop [] (by decide) (by decide)
    rw [List.append_nil] at ended
    exact .leave ended
  | cons n leaves ih =>
    rw [List.flatMap_cons] at table
    simp only [leafBytes, List.length_append] at small
    have rest := ih (fun m member => named m (List.mem_cons_of_mem _ member))
      (front ++ nameTable n.properties) (by rw [table, List.append_assoc])
      (by rw [List.length_append]; omega)
    rw [List.length_append] at rest
    have shallow : [root].length < 2 := Nat.lt_succ_self 1
    have first := walk_opening (named n List.mem_cons_self) front table fits (by omega) (by decide)
      (by decide) shallow (.leave rest)
    rw [leafBytes, List.append_assoc, List.append_assoc]
    exact first

/-- The bytes of leaves and of the end behind them begin with a code. -/
theorem exists_code_leafBytes (place : Nat) (leaves : List Leaf) :
    ∃ code rest, leafBytes place leaves ++ (cell 2 ++ cell 9) = cell code ++ rest ∧
      code < 2 ^ 32 ∧ code ≠ 3 ∧ code ≠ 4 := by
  cases leaves with
  | nil => exact ⟨2, cell 9, rfl, by decide⟩
  | cons n leaves =>
    rw [leafBytes, List.append_assoc, List.append_assoc, openingBytes_append]
    exact ⟨1, _, rfl, by decide⟩

/-- The blocks of a blob that was written hold its nodes: the root, then each leaf under it. -/
theorem walk_write {root : Leaf} {leaves : List Leaf} (rootNamed : root.Named)
    (named : ∀ n ∈ leaves, n.Named) (small : (write root leaves).length < 2 ^ 32) :
    ∃ body strings, Carries (write root leaves) body strings ∧
      Walk strings 2 [] body
        (root.under none :: leaves.map fun n => n.under (some root.properties)) := by
  rw [write_eq] at small ⊢
  refine ⟨_, _, carries_assemble small, ?_⟩
  rw [length_assemble] at small
  simp only [treeBytes, List.length_append] at small
  have fits : (treeStrings root leaves).length < 2 ^ 32 := by omega
  have inside := walk_leaves named root.properties (nameTable root.properties) rfl fits (by omega)
  obtain ⟨code, rest, children, codeFits, other⟩ :=
    exists_code_leafBytes (nameTable root.properties).length leaves
  rw [treeBytes, List.append_assoc, List.append_assoc, children]
  rw [children] at inside
  exact walk_opening rootNamed [] rfl fits (by rw [List.length_nil]; omega) codeFits other
    (by decide) inside

end VirtioMmio.DeviceTree
