import VirtioMmio.Config.State

/-!
What one write does to the configuration block. `Takes` says it once for both writers, the driver
and the host: the new bytes stand where they were written, and the generation advances if and only
if the block is not the same as before. Main results: `takes_write` and `takes_revise`.
-/

namespace VirtioMmio.Config.Block

/-- The second block is the first one with some bytes written over it. The generation counts every
change of the block, and nothing else. -/
structure Takes (b : Block) (offset : Nat) (bytes : List UInt8) (b' : Block) : Prop where
  inside : offset + bytes.length ≤ b.bytes.length
  bytes : b'.bytes = b.bytes.take offset ++ bytes ++ b.bytes.drop (offset + bytes.length)
  generation : b'.generation = b.generation + if b'.bytes = b.bytes then 0 else 1

variable {b b' : Block} {offset : Nat} {bytes : List UInt8}

/-- Bytes that stand there already make no change. -/
theorem takes_same (inside : b.holds offset bytes.length = true)
    (same : b.slice offset bytes.length = bytes) : b.Takes offset bytes b where
  inside := by simpa only [holds, decide_eq_true_eq] using inside
  bytes := by
    have whole : b.bytes = b.bytes.take offset ++ (b.slice offset bytes.length ++
        b.bytes.drop (offset + bytes.length)) := by
      rw [slice, ← List.drop_drop, List.take_append_drop, List.take_append_drop]
    rw [same, ← List.append_assoc] at whole
    exact whole
  generation := by
    rw [if_pos rfl]
    exact (UInt32.add_zero _).symm

theorem bytes_splice_ne (inside : b.holds offset bytes.length = true)
    (other : b.slice offset bytes.length ≠ bytes) : (b.splice offset bytes).bytes ≠ b.bytes := by
  intro same
  have held := slice_splice inside
  rw [slice, same] at held
  exact other held

theorem takes_splice (inside : b.holds offset bytes.length = true)
    (other : b.slice offset bytes.length ≠ bytes) : b.Takes offset bytes (b.splice offset bytes) where
  inside := by simpa only [holds, decide_eq_true_eq] using inside
  bytes := rfl
  generation := by
    rw [if_neg (bytes_splice_ne inside other)]
    rfl

/-- A write by the driver that is not refused. -/
theorem takes_write {size value : Nat} {changed : Bool}
    (written : b.write offset size value = (.written changed, b')) :
    b.Takes offset (LittleEndian.encode size value) b' := by
  have length := LittleEndian.length_encode size value
  simp only [write] at written
  split at written
  · cases written
  next inside =>
    split at written
    · cases written
    · rw [Bool.not_eq_true', Bool.not_eq_false] at inside
      split at written
      next same =>
        cases written
        apply takes_same
        · rw [length]
          exact inside
        · rw [length]
          exact same
      next other =>
        cases written
        apply takes_splice
        · rw [length]
          exact inside
        · rw [length]
          exact other

/-- New bytes from the host that are not refused; whether they change the block is told. -/
theorem takes_revise {changed : Bool} (revised : b.revise offset bytes = .ok (changed, b')) :
    b.Takes offset bytes b' ∧ (changed = true ↔ b'.bytes ≠ b.bytes) := by
  simp only [revise] at revised
  split at revised
  · cases revised
  next inside =>
    rw [Bool.not_eq_true', Bool.not_eq_false] at inside
    split at revised
    next same =>
      cases revised
      exact ⟨takes_same inside same, iff_of_false Bool.false_ne_true (absurd rfl)⟩
    next other =>
      cases revised
      exact ⟨takes_splice inside other, iff_of_true rfl (bytes_splice_ne inside other)⟩

/-- What is read depends on the bytes only. -/
theorem read_congr (same : b'.bytes = b.bytes) (offset size : Nat) :
    b'.read offset size = b.read offset size := by
  obtain ⟨_, _, _⟩ := b
  obtain ⟨_, _, _⟩ := b'
  cases same
  rfl

end VirtioMmio.Config.Block
