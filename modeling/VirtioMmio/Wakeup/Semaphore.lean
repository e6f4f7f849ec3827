/-!
A counting semaphore that can be shut down. Every signal is worth one wait; signals are never
merged. After a shutdown signals are ignored and every wait is cancelled, whatever permits are
left.
-/

namespace VirtioMmio.Wakeup

/-- The semaphore was shut down, so the wait came to nothing. -/
inductive Cancelled where
  | cancelled
  deriving DecidableEq, Repr

def Cancelled.message : Cancelled → String
  | .cancelled => "wait cancelled by shutdown"

structure Semaphore where
  permits : UInt64 := 0
  isShutDown : Bool := false
  deriving DecidableEq, Repr

namespace Semaphore

/-- Add one permit, unless the semaphore is shut down. -/
def signal (s : Semaphore) : Semaphore :=
  if s.isShutDown then s else { s with permits := s.permits + 1 }

/-- Cancel every wait from now on. -/
def shutdown (s : Semaphore) : Semaphore :=
  { s with isShutDown := true }

/-- One attempt to take a permit, the atomic step of every kind of wait: the answer tells whether
there was one. A wait without a deadline repeats the step until it gives `true`; one with a
deadline gives up after the last `false`. -/
def take (s : Semaphore) : Except Cancelled (Bool × Semaphore) :=
  if s.isShutDown then .error .cancelled
  else if 0 < s.permits then .ok (true, { s with permits := s.permits - 1 })
  else .ok (false, s)

end Semaphore

end VirtioMmio.Wakeup
