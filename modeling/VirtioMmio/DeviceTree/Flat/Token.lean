import VirtioMmio.DeviceTree.Format

/-!
The structure block of a flattened device tree as a list of tokens. Reading ends where fewer than
four bytes are left. A token whose code is there but whose content runs past the end of the block
is the last one.
-/

namespace VirtioMmio.DeviceTree.Flat

open BigEndian (readCell)

inductive Token where
  | beginNode
  | endNode
  -- A property, its name given as a place in the strings block.
  | property (nameOffset : Nat) (value : List UInt8)
  | nop
  -- Any other code. It carries no data and belongs nowhere.
  | other (code : Nat)
  -- The code of a node's beginning or of a property, with too few bytes behind it.
  | truncated
  deriving DecidableEq, Repr

namespace Token

def isEndNode : Token → Bool
  | .endNode => true
  | _ => false

def isNop : Token → Bool
  | .nop => true
  | _ => false

def isProperty : Token → Bool
  | .property .. => true
  | _ => false

end Token

/-- The string in front of `bytes`, up to the first zero byte. -/
def readName (bytes : List UInt8) : List UInt8 :=
  bytes.takeWhile (· != 0)

/-- What stands behind the code of a node's beginning: the name with its zero byte, padded to
cells. -/
def readBeginNode (bytes : List UInt8) : Option (Token × List UInt8) :=
  let name := readName bytes
  if name.length < bytes.length then
    some (.beginNode, bytes.drop (padded (name.length + 1)))
  else none

/-- What stands behind the code of a property: the length of the value, the place of the name, and
the value padded to cells. The padding of the last value may be missing. -/
def readProperty (bytes : List UInt8) : Option (Token × List UInt8) :=
  match readCell bytes with
  | none => none
  | some (len, rest) =>
    match readCell rest with
    | none => none
    | some (nameOffset, rest) =>
      if len ≤ rest.length then
        some (.property nameOffset (rest.take len), rest.drop (padded len))
      else none

/-- The token in front of `bytes`, and the bytes after it. There is one wherever a whole code is;
nothing can be read behind a truncated one. -/
def readToken (bytes : List UInt8) : Option (Token × List UInt8) :=
  (readCell bytes).map fun (code, rest) =>
    match code with
    | 1 => (readBeginNode rest).getD (.truncated, [])
    | 2 => (.endNode, rest)
    | 3 => (readProperty rest).getD (.truncated, [])
    | 4 => (.nop, rest)
    | _ => (.other code, rest)

/-- At most `fuel` tokens from the front of `bytes`. -/
def readTokensWith : Nat → List UInt8 → List Token
  | 0, _ => []
  | fuel + 1, bytes =>
    match readToken bytes with
    | none => []
    | some (t, rest) => t :: readTokensWith fuel rest

/-- All tokens of a structure block. Each takes at least four bytes, so their number is bounded by
the length of the block. -/
def readTokens (bytes : List UInt8) : List Token :=
  readTokensWith bytes.length bytes

end VirtioMmio.DeviceTree.Flat
