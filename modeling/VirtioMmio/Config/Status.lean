/-!
The device status: how far the driver has come in bringing the device up. Bits are only added,
in a fixed order, until the driver resets the device. Main statement: `write?_eq_some_iff`, which
gives when a written value is taken.
-/

namespace VirtioMmio.Config

structure Status where
  acknowledge : Bool := false
  driver : Bool := false
  driverOk : Bool := false
  featuresOk : Bool := false
  needsReset : Bool := false
  failed : Bool := false
  deriving DecidableEq, Repr, Inhabited

namespace Status

def empty : Status := {}

def isEmpty (s : Status) : Bool :=
  s == empty

def bits (s : Status) : UInt32 :=
  (if s.acknowledge then 1 else 0) ||| (if s.driver then 2 else 0) |||
    (if s.driverOk then 4 else 0) ||| (if s.featuresOk then 8 else 0) |||
    (if s.needsReset then 64 else 0) ||| (if s.failed then 128 else 0)

def knownBits : UInt32 := 0xcf

/-- The status a register value stands for; `none` if a bit of it means nothing. -/
def ofBits? (v : UInt32) : Option Status :=
  if v &&& knownBits = v then
    some {
      acknowledge := v &&& 1 != 0
      driver := v &&& 2 != 0
      driverOk := v &&& 4 != 0
      featuresOk := v &&& 8 != 0
      needsReset := v &&& 64 != 0
      failed := v &&& 128 != 0 }
  else none

def includes (s t : Status) : Bool :=
  (s.acknowledge || !t.acknowledge) && (s.driver || !t.driver) &&
    (s.driverOk || !t.driverOk) && (s.featuresOk || !t.featuresOk) &&
    (s.needsReset || !t.needsReset) && (s.failed || !t.failed)

/-- Each step of the bring-up stands on the one before it. -/
def inOrder (s : Status) : Bool :=
  (!s.driver || s.acknowledge) && (!s.featuresOk || s.driver) && (!s.driverOk || s.featuresOk)

/-- The status after the driver wrote `written` over `s`, or `none` if the write is rejected. Only
the device sets the needs-reset bit, so it is taken out of the written value; a failed device takes
no write, and no write may clear a bit or skip a step. -/
def write? (s written : Status) : Option Status :=
  let new := { written with needsReset := false }
  if s.failed || !new.includes s || !new.inOrder then none else some new

theorem ofBits?_bits (s : Status) : ofBits? s.bits = some s := by
  obtain ⟨a, b, c, d, e, f⟩ := s
  cases a <;> cases b <;> cases c <;> cases d <;> cases e <;> cases f <;> decide

/-- A write is taken exactly if the device has not failed, no bit is lost and no step is skipped;
what is taken is the written value without the needs-reset bit. -/
theorem write?_eq_some_iff (s written new : Status) :
    s.write? written = some new ↔
      new = { written with needsReset := false } ∧
        s.failed = false ∧ new.includes s = true ∧ new.inOrder = true := by
  simp only [write?]
  split
  · next refused =>
    simp only [reduceCtorEq, false_iff, not_and]
    rintro rfl live kept
    simp_all
  · next taken =>
    simp only [Option.some.injEq]
    constructor
    · rintro rfl
      simp_all
    · rintro ⟨rfl, _⟩
      rfl

end Status

end VirtioMmio.Config
