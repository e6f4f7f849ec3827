import Mathlib.Algebra.Group.Nat.Defs
import Mathlib.Data.List.Nodup
import Mathlib.Data.List.Sort
import VirtioMmio.Queue.Mask

/-!
A set of queues taken apart bit by bit. Main results: `Mask.next?_eq_some`, by which one step gives
up the lowest queue and no other, and `Mask.drain_eq_toList`.
-/

namespace VirtioMmio.Queue.Mask

/-! ### The lowest bit of a number -/

/-- At its lowest bit a number falls into an odd part above and nothing below. -/
theorem eq_odd_part {n k : Nat} (isSet : n.testBit k = true)
    (lowest : ∀ j < k, n.testBit j = false) : ∃ half, n = 2 ^ k * (2 * half + 1) := by
  have low : n % 2 ^ k = 0 := by
    apply Nat.eq_of_testBit_eq
    intro j
    rw [Nat.testBit_mod_two_pow, Nat.zero_testBit]
    by_cases below : j < k
    · rw [lowest j below, Bool.and_false]
    · rw [decide_eq_false below, Bool.false_and]
  have odd : n / 2 ^ k % 2 = 1 := by
    simpa only [Nat.testBit_eq_decide_div_mod_eq, decide_eq_true_eq] using isSet
  have high : 2 * (n / 2 ^ k / 2) + 1 = n / 2 ^ k := by omega
  have whole := Nat.div_add_mod n (2 ^ k)
  refine ⟨n / 2 ^ k / 2, ?_⟩
  rw [high]
  omega

/-- A number and its predecessor have the bits of the number in common, but for the lowest. -/
theorem testBit_and_pred {n k : Nat} (isSet : n.testBit k = true)
    (lowest : ∀ j < k, n.testBit j = false) (j : Nat) :
    (n &&& (n - 1)).testBit j = (n.testBit j && j != k) := by
  obtain ⟨half, parts⟩ := eq_odd_part isSet lowest
  have positive : 0 < 2 ^ k := Nat.two_pow_pos k
  have pred : n - 1 = 2 ^ k * (2 * half) + (2 ^ k - 1) := by
    rw [parts, Nat.mul_add]
    omega
  -- Bits below `k` come from the second summand, the others from the first.
  have bits := Nat.testBit_two_pow_mul_add (2 * half + 1) positive j
  rw [Nat.add_zero, ← parts, Nat.zero_testBit] at bits
  have bitsPred := Nat.testBit_two_pow_mul_add (2 * half) (Nat.pred_lt_of_lt positive) j
  rw [Nat.pred_eq_sub_one, ← pred] at bitsPred
  rw [Nat.testBit_and, bits, bitsPred]
  rcases Nat.lt_trichotomy j k with below | rfl | above
  · simp only [if_pos below, Bool.false_and]
  · simp
  · have beyond : ¬ j < k := Nat.not_lt_of_lt above
    have apart : (j != k) = true := by simpa using Nat.ne_of_gt above
    obtain ⟨further, distance⟩ : ∃ further, j - k = further + 1 := ⟨j - k - 1, by omega⟩
    have double : 2 * half / 2 = half := by omega
    have odd : (2 * half + 1) / 2 = half := by omega
    rw [if_neg beyond, if_neg beyond, apart, distance, Nat.testBit_succ, Nat.testBit_succ, double,
      odd, Bool.and_self, Bool.and_true]

/-! ### One step -/

theorem lt_of_contains {m : Mask} {n : Nat} (isSet : m.contains n = true) : n < 64 :=
  BitVec.lt_of_getLsbD isSet

theorem next?_eq_none {m : Mask} (done : m.next? = none) (n : Nat) : m.contains n = false := by
  simp only [next?] at done
  split at done
  next zero =>
    have nothing : m.bits = 0 := by simpa using zero
    rw [contains, nothing]
    exact Nat.zero_testBit n
  · cases done

/-- What is given up is the lowest queue of the set, and the others remain. -/
theorem next?_eq_some {m others : Mask} {queue : UInt16} (next : m.next? = some (queue, others)) :
    m.contains queue.toNat = true ∧ (∀ n < queue.toNat, m.contains n = false) ∧
      ∀ n, others.contains n = (m.contains n && n != queue.toNat) := by
  simp only [next?] at next
  split at next
  · cases next
  next more =>
    cases next
    have nonzero : m.bits ≠ 0 := by simpa using more
    have isSet : m.contains m.bits.toBitVec.ctz.toNat = true :=
      BitVec.getLsbD_true_ctz_of_ne_zero fun zero => nonzero (UInt64.toBitVec_inj.mp zero)
    have lowest : ∀ n < m.bits.toBitVec.ctz.toNat, m.contains n = false :=
      fun n below => BitVec.getLsbD_false_of_lt_ctz below
    have small := lt_of_contains isSet
    have number : (UInt16.ofNat m.bits.toBitVec.ctz.toNat).toNat = m.bits.toBitVec.ctz.toNat := by
      rw [UInt16.toNat_ofNat']
      omega
    rw [number]
    refine ⟨isSet, lowest, fun n => ?_⟩
    rw [contains, toNat_and_pred nonzero]
    exact testBit_and_pred isSet lowest n

/-! ### All steps -/

theorem mem_drain_iff (m : Mask) (queue : UInt16) :
    queue ∈ m.drain ↔ m.contains queue.toNat = true := by
  fun_induction drain m with
  | case1 m done => simp [next?_eq_none done]
  | case2 m lowest others next ih =>
    obtain ⟨isSet, _, rest⟩ := next?_eq_some next
    rw [List.mem_cons, ih, rest, Bool.and_eq_true, bne_iff_ne, ne_eq, UInt16.toNat_inj]
    constructor
    · rintro (rfl | ⟨member, _⟩)
      · exact isSet
      · exact member
    · intro member
      by_cases same : queue = lowest
      · exact .inl same
      · exact .inr ⟨member, same⟩

theorem contains_iff_drain (m : Mask) (n : Nat) :
    m.contains n = true ↔ ∃ number ∈ m.drain, number.toNat = n := by
  constructor
  · intro isSet
    have small := lt_of_contains isSet
    have number : (UInt16.ofNat n).toNat = n := by
      rw [UInt16.toNat_ofNat']
      omega
    exact ⟨.ofNat n, (m.mem_drain_iff _).mpr (number.symm ▸ isSet), number⟩
  · rintro ⟨number, member, rfl⟩
    exact (m.mem_drain_iff number).mp member

theorem drain_increasing (m : Mask) : m.drain.Pairwise (· < ·) := by
  fun_induction drain m with
  | case1 m done => exact .nil
  | case2 m queue others next ih =>
    obtain ⟨_, lowest, rest⟩ := next?_eq_some next
    refine .cons (fun later member => ?_) ih
    have left : others.contains later.toNat = true := (mem_drain_iff others later).mp member
    rw [rest, Bool.and_eq_true, bne_iff_ne] at left
    obtain ⟨inside, apart⟩ := left
    -- Anything smaller would have been the lowest itself.
    have above : ¬ later.toNat < queue.toNat := by
      intro below
      rw [lowest later.toNat below] at inside
      cases inside
    rw [UInt16.lt_iff_toNat_lt]
    omega

/-- Arithmetic on the word gives up what a search through all numbers finds, in the same order. -/
theorem drain_eq_toList (m : Mask) : m.drain = m.toList := by
  refine m.drain_increasing.eq_of_mem_iff m.toList_increasing fun queue => ?_
  rw [mem_drain_iff, mem_toList_iff, iff_and_self]
  intro isSet
  exact UInt16.lt_iff_toNat_lt.mpr (lt_of_contains isSet)

end VirtioMmio.Queue.Mask
