import VirtioMmio.Board.Slot
import VirtioMmio.Bytes.BigEndian
import VirtioMmio.DeviceTree.Error
import VirtioMmio.DeviceTree.Reader

/-!
Device places described by a flattened device tree: one per `virtio,mmio` node, lowest address
first. One node that cannot be used spoils the whole tree.
-/

namespace VirtioMmio.DeviceTree

open BigEndian (readCell)
open Board (Slot)

def deviceCompatible : String := "virtio,mmio"

/-- The interrupt that the first specifier of an `interrupts` property names: kind, number and
flags, one cell each. Shared and private peripheral interrupts are numbered from different bases;
the number must not leave 32 bits. -/
def decodeInterrupt (value : List UInt8) : Option UInt32 :=
  match readCell value with
  | none => none
  | some (kind, rest) =>
    match readCell rest with
    | none => none
    | some (number, rest) =>
      match readCell rest with
      | none => none
      | some _ =>
        let numberedFrom (base : UInt32) : Option UInt32 :=
          if number + base.toNat < 0x1_0000_0000 then some (UInt32.ofNat (number + base.toNat))
          else none
        match kind with
        | 0 => numberedFrom Board.sharedInterruptBase
        | 1 => numberedFrom Board.privateInterruptBase
        | _ => none

/-- The place a device node describes. A missing size means one place of the default bank. -/
def Node.slot (n : Node) : Except TreeError Slot :=
  match n.reg with
  | none => .error .missingReg
  | some region =>
    match (n.property "interrupts").bind decodeInterrupt with
    | none => .error .missingInterrupt
    | some intid =>
      .ok { base := region.address, size := region.size.getD Board.bankStride, intid }

/-- The places of a list of nodes, or the failure of the first node that has none. -/
def slotsOf : List Node → Except TreeError (List Slot)
  | [] => .ok []
  | n :: nodes =>
    match n.slot with
    | .error e => .error e
    | .ok s =>
      match slotsOf nodes with
      | .error e => .error e
      | .ok rest => .ok (s :: rest)

/-- All device places a blob describes, lowest address first; places with one address keep the
order of the tree. -/
def slots (r : Reader) (bytes : List UInt8) : Except TreeError (List Slot) :=
  match r.nodes? bytes with
  | none => .error .invalid
  | some nodes =>
    match slotsOf (nodes.filter (·.isCompatible deviceCompatible)) with
    | .error e => .error e
    | .ok found => .ok (found.mergeSort fun a b => a.base ≤ b.base)

/-- The places of a blob if it describes any, the default bank otherwise. -/
def slotsOrBank (r : Reader) (bytes : Option (List UInt8)) : List Slot :=
  match bytes with
  | none => Board.bank
  | some bytes =>
    match slots r bytes with
    | .ok (s :: rest) => s :: rest
    | _ => Board.bank

end VirtioMmio.DeviceTree
