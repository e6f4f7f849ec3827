/-!
Sets of queue numbers below 64, one bit of a word each. Main statements: `contains_insert`, and
`mem_toList_iff` and `toList_increasing`, by which a set is enumerated without omission, repetition
or disorder. `drain` enumerates it by arithmetic on the word.
-/

namespace VirtioMmio.Queue

structure Mask where
  bits : UInt64 := 0
  deriving DecidableEq, Repr

namespace Mask

def empty : Mask := ⟨0⟩

def isEmpty (m : Mask) : Bool := m.bits == 0

/-- Add a queue. Numbers are taken modulo 64, the width of the word. -/
def insert (m : Mask) (queue : UInt16) : Mask :=
  ⟨m.bits ||| ((1 : UInt64) <<< queue.toUInt64)⟩

def contains (m : Mask) (queue : Nat) : Bool :=
  m.bits.toNat.testBit queue

theorem contains_insert (m : Mask) (queue : UInt16) (small : queue < 64) (n : Nat) :
    (m.insert queue).contains n = (m.contains n || n == queue.toNat) := by
  have bound : queue.toNat < 64 := by simpa using UInt16.lt_iff_toNat_lt.mp small
  have fits : 2 ^ queue.toNat < 2 ^ 64 := Nat.pow_lt_pow_right (by decide) bound
  have bit : ((1 : UInt64) <<< queue.toUInt64).toNat = 2 ^ queue.toNat := by
    have amount : queue.toUInt64.toNat % 64 = queue.toNat := by
      rw [UInt16.toNat_toUInt64, Nat.mod_eq_of_lt bound]
    rw [UInt64.toNat_shiftLeft, amount, UInt64.toNat_one, Nat.shiftLeft_eq, Nat.one_mul,
      Nat.mod_eq_of_lt fits]
  simp only [contains, insert, UInt64.toNat_or, Nat.testBit_or, bit, Nat.testBit_two_pow]
  simp [eq_comm, Bool.beq_eq_decide_eq]

/-- The queues of the set, lowest number first. -/
def toList (m : Mask) : List UInt16 :=
  ((List.range 64).filter m.contains).map UInt16.ofNat

theorem mem_toList_iff (m : Mask) (queue : UInt16) :
    queue ∈ m.toList ↔ queue < 64 ∧ m.contains queue.toNat = true := by
  simp only [toList, List.mem_map, List.mem_filter, List.mem_range]
  constructor
  · rintro ⟨n, ⟨bound, isSet⟩, rfl⟩
    have same : (UInt16.ofNat n).toNat = n := by
      rw [UInt16.toNat_ofNat']
      omega
    exact ⟨UInt16.lt_iff_toNat_lt.mpr (by rw [same]; simpa using bound), by rw [same]; exact isSet⟩
  · rintro ⟨bound, isSet⟩
    have small : queue.toNat < 64 := by simpa using UInt16.lt_iff_toNat_lt.mp bound
    exact ⟨queue.toNat, ⟨small, isSet⟩, by simp⟩

theorem toList_increasing (m : Mask) : m.toList.Pairwise (· < ·) := by
  rw [toList, List.pairwise_map]
  have ordered : ((List.range 64).filter m.contains).Pairwise (· < ·) :=
    List.Pairwise.filter _ List.pairwise_lt_range
  refine ordered.imp_of_mem ?_
  intro a b ha hb less
  have bound : b < 64 := List.mem_range.mp (List.mem_filter.mp hb).1
  rw [UInt16.lt_iff_toNat_lt, UInt16.toNat_ofNat', UInt16.toNat_ofNat']
  omega

/-! ### One bit after the other -/

/-- The lowest queue of the set, and the set without it: the word and its predecessor differ in the
lowest one bit and in the zeros below it. -/
def next? (m : Mask) : Option (UInt16 × Mask) :=
  if m.bits == 0 then none
  else some (UInt16.ofNat m.bits.toBitVec.ctz.toNat, ⟨m.bits &&& (m.bits - 1)⟩)

theorem toNat_pos {bits : UInt64} (nonzero : bits ≠ 0) : 0 < bits.toNat :=
  UInt64.lt_iff_toNat_lt.mp (UInt64.pos_iff_ne_zero.mpr nonzero)

theorem toNat_and_pred {bits : UInt64} (nonzero : bits ≠ 0) :
    (bits &&& (bits - 1)).toNat = bits.toNat &&& (bits.toNat - 1) := by
  have pred := UInt64.toNat_sub_of_le bits 1 (UInt64.le_iff_toNat_le.mpr (toNat_pos nonzero))
  rw [UInt64.toNat_and, pred, UInt64.toNat_one]

theorem next?_lt {m others : Mask} {queue : UInt16} (next : m.next? = some (queue, others)) :
    others.bits.toNat < m.bits.toNat := by
  simp only [next?] at next
  split at next
  · cases next
  next more =>
    cases next
    have nonzero : m.bits ≠ 0 := by simpa using more
    have positive := toNat_pos nonzero
    have less : m.bits.toNat &&& (m.bits.toNat - 1) ≤ m.bits.toNat - 1 := Nat.and_le_right
    rw [toNat_and_pred nonzero]
    omega

/-- The queues that the word gives up until it is zero. -/
def drain (m : Mask) : List UInt16 :=
  match _ : m.next? with
  | none => []
  | some (queue, others) => queue :: others.drain
termination_by m.bits.toNat
decreasing_by exact next?_lt (by assumption)

end Mask

end VirtioMmio.Queue
