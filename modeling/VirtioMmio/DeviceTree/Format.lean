import VirtioMmio.Bytes.BigEndian

/-!
The format of a flattened device tree, as far as both its rules and a reader need it: where the
header says what, the properties of a node by name, and lists of strings.
-/

namespace VirtioMmio.DeviceTree

structure Property where
  name : List UInt8
  value : List UInt8
  deriving DecidableEq, Repr

/-- What a tree says of a node: its properties and those of its parent. The root has no parent. -/
structure Stanza where
  properties : List Property
  parent : Option (List Property)
  deriving DecidableEq, Repr

/-! ### Header -/

def magic : Nat := 0xd00dfeed

/-- Length of the header: ten cells. -/
def headerBytes : Nat := 40

/-- The cell with a given number in the header. -/
def headerCell (bytes : List UInt8) (index : Nat) : Nat :=
  BigEndian.decode ((bytes.drop (4 * index)).take 4)

def slice (bytes : List UInt8) (offset len : Nat) : List UInt8 :=
  (bytes.drop offset).take len

/-- A length rounded up to whole four-byte cells. -/
def padded (n : Nat) : Nat :=
  (n + 3) / 4 * 4

/-! ### Properties -/

def utf8 (s : String) : List UInt8 :=
  s.toUTF8.data.toList

/-- The value of the first property with a name. -/
def firstValue (properties : List Property) (name : String) : Option (List UInt8) :=
  (properties.find? (·.name == utf8 name)).map (·.value)

/-- The value of the last property with a name. -/
def lastValue (properties : List Property) (name : String) : Option (List UInt8) :=
  firstValue properties.reverse name

/-- The pieces of a list property: each ends with a zero byte, which the last may lack. -/
def splitAtZeros : List UInt8 → List (List UInt8)
  | [] => []
  | b :: bytes =>
    if b = 0 then [] :: splitAtZeros bytes
    else
      match splitAtZeros bytes with
      | [] => [[b]]
      | s :: rest => (b :: s) :: rest

/-- The strings that pieces of bytes spell, up to the first piece that is not valid UTF-8. -/
def spelled : List (List UInt8) → List String
  | [] => []
  | piece :: pieces =>
    match String.fromUTF8? ⟨piece.toArray⟩ with
    | none => []
    | some s => s :: spelled pieces

/-- The strings of a list property. -/
def stringsOf (value : List UInt8) : List String :=
  spelled (splitAtZeros value)

end VirtioMmio.DeviceTree
