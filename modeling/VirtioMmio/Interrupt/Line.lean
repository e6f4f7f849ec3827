import VirtioMmio.Interrupt.Causes

/-!
The interrupt line of a device. It keeps the pending causes and calls the interrupt controller on
the edges only: when the first cause becomes pending and when the last one is cleared.
-/

namespace VirtioMmio.Interrupt

inductive LineCall where
  | raise (intid : UInt32)
  | lower (intid : UInt32)
  deriving DecidableEq, Repr

/-- The line of one device: its interrupt number and the causes that are pending. -/
structure Line where
  intid : UInt32
  pending : Causes := .nothing
  deriving DecidableEq, Repr

namespace Line

def isPending (l : Line) : Bool := !l.pending.isEmpty

/-- Make causes pending. The controller is called if none was pending before. -/
def raise (l : Line) (causes : Causes) : Line × List LineCall :=
  if causes.isEmpty then (l, [])
  else
    ({ l with pending := l.pending.union causes },
      if l.pending.isEmpty then [.raise l.intid] else [])

/-- Clear causes. The controller is called if this clears the last pending one. -/
def clear (l : Line) (causes : Causes) : Line × List LineCall :=
  let rest := l.pending.without causes
  ({ l with pending := rest },
    if !l.pending.isEmpty && rest.isEmpty then [.lower l.intid] else [])

def lower (l : Line) : Line × List LineCall :=
  l.clear .all

theorem pending_raise (l : Line) (causes : Causes) :
    (l.raise causes).1.pending = l.pending.union causes := by
  simp only [raise]
  split
  · next idle =>
    obtain ⟨a, b⟩ := causes
    cases a <;> cases b <;> simp_all [Causes.isEmpty, Causes.union]
  · rfl

theorem pending_clear (l : Line) (causes : Causes) :
    (l.clear causes).1.pending = l.pending.without causes := rfl

end Line

end VirtioMmio.Interrupt
