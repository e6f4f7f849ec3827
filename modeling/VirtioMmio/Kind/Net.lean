import VirtioMmio.Device.Profile

/-!
Network devices. The device publishes its hardware address, link state and frame size; frames are
moved by the backend.
-/

namespace VirtioMmio.Kind

open Device (Profile)

/-- A hardware address: six bytes. -/
structure Mac where
  bytes : Vector UInt8 6
  deriving DecidableEq, Repr

/-- The locally administered address of a virtual machine: its number plus one in the last byte. -/
def Mac.ofVm (vm : UInt64) : Mac :=
  ⟨#v[0x52, 0x54, 0x00, 0x00, 0x00, (vm + 1).toUInt8]⟩

/-- A network interface as the driver is to see it. -/
structure Net where
  mac : Mac
  linkUp : Bool
  mtu : Option UInt16
  deriving DecidableEq, Repr

namespace Net

def mtuFeature : UInt64 := 0x8
def macFeature : UInt64 := 0x20
def statusFeature : UInt64 := 0x10000

def linkUpStatus : UInt16 := 1
/-- The size of the header in front of every frame. -/
def headerBytes : Nat := 12
def receiveQueue : UInt16 := 0
def transmitQueue : UInt16 := 1
/-- Where the status field lies in the configuration block. -/
def statusOffset : Nat := 6

/-- The interface of a virtual machine: link up, any frame size. -/
def ofVm (vm : UInt64) : Net :=
  ⟨.ofVm vm, true, none⟩

/-- The status field for a state of the link. -/
def linkStatus (up : Bool) : UInt16 :=
  if up then linkUpStatus else 0

def features (n : Net) : UInt64 :=
  macFeature ||| statusFeature ||| (if n.mtu.isSome then mtuFeature else 0)

/-- The configuration block: address, status, one pair of queues, frame size. -/
def encode (n : Net) : List UInt8 :=
  n.mac.bytes.toList ++
    LittleEndian.encode 2 (linkStatus n.linkUp).toNat ++
    LittleEndian.encode 2 1 ++
    LittleEndian.encode 2 (n.mtu.getD 0).toNat

/-- An interface has one queue for each direction. -/
def profile (n : Net) : Profile where
  id := .net
  features := n.features
  queues := 2
  config := n.encode

end Net

end VirtioMmio.Kind
