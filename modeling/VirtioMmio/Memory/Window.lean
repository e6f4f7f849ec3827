import VirtioMmio.Memory.Error
import VirtioMmio.Memory.Store

/-!
Bounds-checked views of a byte store. A window names `len` bytes of a store; every access through
it is checked against that length, so nothing outside the window can be read or written.
-/

namespace VirtioMmio.Memory

/-- The bytes `start ..< start + len` of a store. -/
structure Window where
  start : Nat
  len : Nat
  deriving DecidableEq, Repr

namespace Window

def check (w : Window) (offset len : Nat) : Except MemoryError Unit :=
  if offset + len ≤ w.len then .ok () else .error (.outOfBounds offset len w.len)

/-- The part `offset ..< offset + len` of the window. -/
def sub (w : Window) (offset len : Nat) : Except MemoryError Window :=
  match w.check offset len with
  | .ok () => .ok ⟨w.start + offset, len⟩
  | .error e => .error e

def read (w : Window) (s : Store) (offset len : Nat) : Except MemoryError (List UInt8) :=
  match w.check offset len with
  | .ok () => .ok (s.read (w.start + offset) len)
  | .error e => .error e

def write (w : Window) (s : Store) (offset : Nat) (bytes : List UInt8) :
    Except MemoryError Store :=
  match w.check offset bytes.length with
  | .ok () => .ok (s.write (w.start + offset) bytes)
  | .error e => .error e

theorem check_eq_ok_iff (w : Window) (offset len : Nat) :
    w.check offset len = .ok () ↔ offset + len ≤ w.len := by
  simp only [check]
  split <;> simp_all

end Window

end VirtioMmio.Memory
