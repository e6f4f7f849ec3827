/-!
What the search for devices asks of a reader of flattened device trees. The search takes its reader
as a parameter, so nothing is said here of how a blob is taken apart.
-/

namespace VirtioMmio.DeviceTree

/-- One entry of a node's registers. -/
structure Region where
  address : UInt64
  size : Option UInt64
  deriving DecidableEq, Repr

/-- The answers of a node. -/
structure Node where
  -- The strings of `compatible`, if the node has that property.
  compatible : Option (List String)
  -- The first entry of `reg`, if there is one that can be read.
  reg : Option Region
  -- The value of a property.
  property : String → Option (List UInt8)

/-- Some string of the node's `compatible` is `name`. -/
def Node.isCompatible (n : Node) (name : String) : Bool :=
  match n.compatible with
  | none => false
  | some names => names.contains name

/-- A reader accepts a blob or not. The nodes of an accepted one come in the order of its walk. -/
structure Reader where
  nodes? : List UInt8 → Option (List Node)

end VirtioMmio.DeviceTree
