import VirtioMmio.Bytes.Halves
import VirtioMmio.Config.Block
import VirtioMmio.Config.Status

/-!
The negotiation between driver and device: features, status and selectors, together with the
configuration block. Which register a value was written to is decided elsewhere; here are the rules
for what the value may do.
-/

namespace VirtioMmio.Config

inductive StatusOutcome where
  -- The driver wrote zero: the device is reset.
  | reset
  -- The status holds the written value; `driverOk` tells whether this set the driver-ok bit.
  | accepted (driverOk : Bool)
  | rejected
  deriving DecidableEq, Repr

/-- Everything the driver negotiates, and the configuration block. -/
structure State where
  -- Features the device offers.
  offered : UInt64
  -- Features the driver wrote.
  accepted : UInt64 := 0
  offeredWindow : UInt32 := 0
  acceptedWindow : UInt32 := 0
  status : Status := .empty
  -- The queue that the queue registers act on.
  queue : UInt16 := 0
  block : Block
  deriving DecidableEq, Repr

namespace State

def new (offered : UInt64) (bytes : List UInt8) (writable : List Span) : State where
  offered
  block := ⟨bytes, writable, 0⟩

/-- Back to power-on, except for the block and its generation. -/
def reset (s : State) : State :=
  { s with
    accepted := 0
    offeredWindow := 0
    acceptedWindow := 0
    status := .empty
    queue := 0 }

/-! ### Features -/

/-- The features both sides agree on. -/
def negotiated (s : State) : UInt64 :=
  s.accepted &&& s.offered

/-- The selected half of the offered features; there is nothing beyond the two halves. -/
def offeredHalf (s : State) : UInt32 :=
  if s.offeredWindow = 0 then Halves.low s.offered
  else if s.offeredWindow = 1 then Halves.high s.offered
  else 0

def selectOffered (s : State) (window : UInt32) : State :=
  { s with offeredWindow := window }

def selectAccepted (s : State) (window : UInt32) : State :=
  { s with acceptedWindow := window }

/-- The driver may write its features: after it announced itself, before they are settled. -/
def featuresOpen (s : State) : Bool :=
  s.status.acknowledge && s.status.driver && !s.status.featuresOk && !s.status.failed

/-- Store the selected half of the driver's features; tells whether it was taken. -/
def writeFeatures (s : State) (half : UInt32) : Bool × State :=
  if !s.featuresOpen then (false, s)
  else if s.acceptedWindow = 0 then (true, { s with accepted := Halves.withLow s.accepted half })
  else if s.acceptedWindow = 1 then (true, { s with accepted := Halves.withHigh s.accepted half })
  else (false, s)

/-! ### Status -/

/-- A write to the status register. Zero resets; settling the features drops those that were not
offered. -/
def writeStatus (s : State) (v : UInt32) : StatusOutcome × State :=
  if v = 0 then (.reset, s.reset)
  else
    match (Status.ofBits? v).bind s.status.write? with
    | none => (.rejected, s)
    | some status =>
      -- From here on the features stand still, so what was not offered goes now.
      let settles := status.featuresOk && !s.status.featuresOk
      (.accepted (status.driverOk && !s.status.driverOk),
        { s with
          status
          accepted := if settles then s.accepted &&& s.offered else s.accepted })

/-! ### Queue selection -/

/-- Select a queue. Numbers beyond 16 bits all select the last number, which names no queue. -/
def selectQueue (s : State) (v : UInt32) : State :=
  { s with queue := if v.toNat < 0x10000 then v.toUInt16 else 0xffff }

/-! ### Configuration block -/

def writeBlock (s : State) (offset size value : Nat) : BlockOutcome × State :=
  let (outcome, block) := s.block.write offset size value
  (outcome, { s with block })

/-- A change of part of the block by the device; tells whether the driver has to hear of it: the
block changed while the device was running. -/
def reviseBlock (s : State) (offset : Nat) (bytes : List UInt8) :
    Except ConfigError (Bool × State) :=
  match s.block.revise offset bytes with
  | .error e => .error e
  | .ok (changed, block) => .ok (changed && s.status.driverOk, { s with block })

end State

end VirtioMmio.Config
