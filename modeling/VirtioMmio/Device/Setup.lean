import VirtioMmio.Board.Slot
import VirtioMmio.Device.Basic
import VirtioMmio.Kind.Basic

/-!
Building a device from its place on the board, its type and its options.
-/

namespace VirtioMmio

structure Setup where
  slot : Board.Slot
  kind : Kind
  maxQueueSize : UInt16 := Device.defaultQueueSize
  indirect : Bool := false
  deriving DecidableEq, Repr

namespace Setup

/-- A guest may not have the context number of the host, nor one below it. -/
def reservedCid? (kind : Kind) : Option UInt64 :=
  match kind with
  | .socket s => if s.cid ≤ Kind.Socket.hostCid then some s.cid else none
  | _ => none

/-- The checks that need no device. Building a device checks its layout again. -/
def check (s : Setup) : Except ConfigError Unit :=
  if !Device.isQueueLimit s.maxQueueSize then .error (.queueSize s.maxQueueSize)
  else if s.slot.base % Transport.windowSize != 0 then .error (.misaligned s.slot.base)
  else
    match reservedCid? s.kind with
    | some cid => .error (.reservedCid cid)
    | none => .ok ()

def options (s : Setup) : Device.Options where
  base := s.slot.base
  intid := s.slot.intid
  maxQueueSize := s.maxQueueSize
  indirect := s.indirect

def build (s : Setup) (ram : Memory.Ram) : Except ConfigError Device :=
  match s.check with
  | .error e => .error e
  | .ok () => Device.new s.kind.profile s.options ram

end Setup

/-! ### Changes by the host -/

namespace Device

/-- The link of a network device went up or down. -/
def changeLink (d : Device) (up : Bool) : Except ConfigError Device :=
  d.reviseConfig Kind.Net.statusOffset (LittleEndian.encode 2 (Kind.Net.linkStatus up).toNat)

/-- The terminal of a console device changed its size. -/
def resize (d : Device) (size : Kind.TerminalSize) : Except ConfigError Device :=
  d.reviseConfig 0 (Kind.Console.encodeSize size)

end Device

end VirtioMmio
