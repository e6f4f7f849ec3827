import VirtioMmio.DeviceTree.Flat.Token
import VirtioMmio.DeviceTree.Reader

/-!
A plain reader of flattened device trees, to run the search with. It gives some answer for every
blob, also where the format has no rule.
-/

namespace VirtioMmio.DeviceTree.Flat

open BigEndian (readCell)

/-! ### Blob -/

/-- The two blocks of a blob that matter for its nodes. -/
structure Blob where
  body : List UInt8
  strings : List UInt8
  deriving DecidableEq, Repr

/-- A blob has a whole header, the magic number, and at least the size its header gives. -/
def Blob.ofBytes? (bytes : List UInt8) : Option Blob :=
  if bytes.length < headerBytes || headerCell bytes 0 != magic
      || bytes.length < headerCell bytes 1 then none
  else
    some {
      body := slice bytes (headerCell bytes 2) (headerCell bytes 9)
      strings := slice bytes (headerCell bytes 3) (headerCell bytes 8) }

/-! ### Walk -/

/-- The properties in front of a token list, up to the first token that is neither a property nor
a no-operation. Names are looked up in the strings block. -/
def propertiesOf (strings : List UInt8) (tokens : List Token) : List Property :=
  (tokens.takeWhile fun t => t.isNop || t.isProperty).filterMap fun
    | .property nameOffset value => some ⟨readName (strings.drop nameOffset), value⟩
    | _ => none

/-- At most `fuel` nodes, in the order in which they begin. `ancestors` holds the properties of the
open nodes, innermost first. After the ends of nodes and any no-operations the next token must
begin a node, otherwise the walk is over; it is also over, without the node, when the tokens run
out behind the node's properties. Any token there will do, even a truncated one. -/
def walkWith (strings : List UInt8) : Nat → List (List Property) → List Token → List Stanza
  | 0, _, _ => []
  | fuel + 1, ancestors, tokens =>
    -- Every end of a node closes the innermost open one.
    let closing := tokens.takeWhile Token.isEndNode
    let ancestors := ancestors.drop closing.length
    match (tokens.drop closing.length).dropWhile Token.isNop with
    | .beginNode :: inner =>
      let after := (inner.dropWhile Token.isNop).dropWhile Token.isProperty
      let properties := propertiesOf strings inner
      if after.isEmpty then []
      else ⟨properties, ancestors.head?⟩
        :: walkWith strings fuel (properties :: ancestors) after
    | _ => []

/-- The nodes of a blob. Each begins with a token, so their number is bounded by that of the
tokens. -/
def Blob.stanzas (b : Blob) : List Stanza :=
  let tokens := readTokens b.body
  walkWith b.strings tokens.length [] tokens

/-! ### Answers -/

/-- The number in the first cell of a property, or `fallback` if there is none. -/
def cellCount (properties : List Property) (name : String) (fallback : Nat) : Nat :=
  match lastValue properties name with
  | none => fallback
  | some value => ((readCell value).map (·.1)).getD fallback

/-- The number in the first `cells` cells of `bytes`, and the bytes after them. -/
def readCells (cells : Nat) (bytes : List UInt8) : Option (Nat × List UInt8) :=
  if 4 * cells ≤ bytes.length then
    some (BigEndian.decode (bytes.take (4 * cells)), bytes.drop (4 * cells))
  else none

/-- The region in front of a `reg` value. An address takes one or two cells; a size takes up to two,
and with none of its own it is absent. -/
def readRegion (addressCells sizeCells : Nat) (value : List UInt8) : Option Region :=
  if addressCells = 0 || 2 < addressCells || 2 < sizeCells then none
  else
    match readCells addressCells value with
    | none => none
    | some (address, rest) =>
      if sizeCells = 0 then some ⟨.ofNat address, none⟩
      else (readCells sizeCells rest).map fun (size, _) => ⟨.ofNat address, some (.ofNat size)⟩

/-- The first region of the first `reg`, with cells as the parent lays down. -/
def regionOf (s : Stanza) : Option Region :=
  let parent := s.parent.getD []
  (firstValue s.properties "reg").bind
    (readRegion (cellCount parent "#address-cells" 2) (cellCount parent "#size-cells" 1))

def answer (s : Stanza) : Node where
  compatible := (lastValue s.properties "compatible").map stringsOf
  reg := regionOf s
  property := firstValue s.properties

def reader : Reader where
  nodes? bytes := (Blob.ofBytes? bytes).map fun b => b.stanzas.map answer

end VirtioMmio.DeviceTree.Flat
