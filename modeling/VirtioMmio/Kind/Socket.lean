import VirtioMmio.Device.Profile

/-!
Socket devices: stream connections between host and guest. The device publishes the context number
of the guest and nothing else.
-/

namespace VirtioMmio.Kind

open Device (Profile)

/-- A guest as it is addressed by its peers. -/
structure Socket where
  cid : UInt64
  deriving DecidableEq, Repr

namespace Socket

def receiveQueue : UInt16 := 0
def transmitQueue : UInt16 := 1
def eventQueue : UInt16 := 2

/-- The context number of the host. It and those below it cannot belong to a guest. -/
def hostCid : UInt64 := 2

def encode (s : Socket) : List UInt8 :=
  LittleEndian.encode 8 s.cid.toNat

/-- A socket device has a queue for each direction and one for events. -/
def profile (s : Socket) : Profile where
  id := .socket
  features := 0
  queues := 3
  config := s.encode

end Socket

end VirtioMmio.Kind
