/-!
What a backend holds between the driver's set-up and the next reset.
-/

namespace VirtioMmio.Backend

/-- The device as it was handed to the backend: the agreed features, and for each queue the number
of its virtqueue, if the driver brought it up. -/
structure Session where
  features : UInt64
  queues : List (Option Nat)
  -- The device was reset or shut down since; the session can do nothing any more.
  retired : Bool := false
  deriving DecidableEq, Repr

namespace Session

/-- All bits of a mask are among the agreed features. -/
def hasAll (s : Session) (mask : UInt64) : Bool :=
  s.features &&& mask == mask

/-- The number of the virtqueue of a queue, if the driver brought it up. -/
def queue? (s : Session) (index : Nat) : Option Nat :=
  s.queues[index]?.join

end Session

end VirtioMmio.Backend
