import Mathlib.Algebra.Group.Nat.Defs
import VirtioMmio.Proofs.Config.Generation

/-!
The configuration block as an array of bytes. A write that is taken replaces the bytes of one span,
inside one writable range if the driver wrote, and keeps every other byte. Reads of any width agree
on the order of the bytes: a wide read is two narrow ones, the lower first (`read_add`).
-/

namespace VirtioMmio.Config.Block

variable {b b' : Block} {offset : Nat} {bytes : List UInt8}

/-! ### Writes -/

/-- One writable range holds the whole span. -/
def Opens (b : Block) (offset size : Nat) : Prop :=
  ∃ w ∈ b.writable, w.start ≤ offset ∧ offset + size ≤ w.stop

namespace Takes

theorem length (takes : b.Takes offset bytes b') : b'.bytes.length = b.bytes.length := by
  have inside := takes.inside
  rw [takes.bytes, List.length_append, List.length_append, List.length_take, List.length_drop]
  omega

theorem getElem? (takes : b.Takes offset bytes b') (i : Nat) :
    b'.bytes[i]? =
      if offset ≤ i ∧ i < offset + bytes.length then bytes[i - offset]? else b.bytes[i]? := by
  have inside := takes.inside
  have front : (b.bytes.take offset).length = offset := by
    rw [List.length_take]
    omega
  rw [takes.bytes, List.append_assoc]
  split
  next within =>
    rw [List.getElem?_append_right (by omega), front, List.getElem?_append_left (by omega)]
  next outside =>
    rcases Nat.lt_or_ge i offset with before | after
    · rw [List.getElem?_append_left (by omega), List.getElem?_take_of_lt before]
    · rw [List.getElem?_append_right (by omega), front, List.getElem?_append_right (by omega),
        List.getElem?_drop]
      congr 1
      omega

theorem slice (takes : b.Takes offset bytes b') : b'.slice offset bytes.length = bytes := by
  have inside := takes.inside
  have front : (b.bytes.take offset).length = offset := by
    rw [List.length_take]
    omega
  rw [Block.slice, takes.bytes, List.append_assoc, List.drop_append_of_le_length (by omega),
    List.drop_of_length_le (by omega), List.nil_append, List.take_left]

end Takes

/-- A write by the driver is taken inside one writable range only. -/
theorem opens_of_write {size value : Nat} {changed : Bool}
    (written : b.write offset size value = (.written changed, b')) :
    b.Opens offset size ∧ b'.writable = b.writable := by
  simp only [write] at written
  split at written
  · cases written
  · split at written
    · cases written
    next opened =>
      rw [Bool.not_eq_true', Bool.not_eq_false, List.any_eq_true] at opened
      obtain ⟨w, listed, holds⟩ := opened
      rw [Bool.and_eq_true, decide_eq_true_eq, decide_eq_true_eq] at holds
      refine ⟨⟨w, listed, holds⟩, ?_⟩
      split at written <;> (cases written; rfl)

theorem writable_revise {changed : Bool} (revised : b.revise offset bytes = .ok (changed, b')) :
    b'.writable = b.writable := by
  simp only [revise] at revised
  split at revised
  · cases revised
  · split at revised <;> (cases revised; rfl)

/-- Only a revision that does not fit is refused. -/
theorem revise_eq_error {e : ConfigError} (refused : b.revise offset bytes = .error e) :
    b.bytes.length < offset + bytes.length := by
  simp only [revise] at refused
  split at refused
  next outside => simpa [holds] using outside
  · split at refused <;> cases refused

/-! ### Reads -/

theorem read_eq_some_iff (size v : Nat) :
    b.read offset size = some v ↔
      offset + size ≤ b.bytes.length ∧ v = LittleEndian.decode (b.slice offset size) := by
  rw [read]
  by_cases inside : offset + size ≤ b.bytes.length
  · rw [if_pos (by simpa [holds] using inside)]
    simp [inside, eq_comm]
  · rw [if_neg (by simpa [holds] using inside)]
    simp [inside]

theorem length_slice {size : Nat} (inside : offset + size ≤ b.bytes.length) :
    (b.slice offset size).length = size := by
  rw [slice, List.length_take, List.length_drop]
  omega

theorem lt_of_read {size v : Nat} (read : b.read offset size = some v) : v < 2 ^ (8 * size) := by
  obtain ⟨inside, rfl⟩ := (read_eq_some_iff size v).mp read
  have bound := LittleEndian.decode_lt (b.slice offset size)
  rwa [length_slice inside, Nat.pow_eq, show 256 = 2 ^ 8 from rfl, ← Nat.pow_mul] at bound

/-- A write that is taken is what the same read gives afterwards. -/
theorem read_written {size value : Nat} {changed : Bool}
    (written : b.write offset size value = (.written changed, b')) :
    b'.read offset size = some (value % 2 ^ (8 * size)) := by
  have takes := takes_write written
  have inside := takes.inside
  have whole := takes.slice
  rw [LittleEndian.length_encode] at inside whole
  rw [read_eq_some_iff, takes.length, whole, LittleEndian.decode_encode, Nat.pow_eq,
    show 256 = 2 ^ 8 from rfl, ← Nat.pow_mul]
  exact ⟨inside, rfl⟩

/-- A wide read is a narrow one, and another one above it. -/
theorem read_add (n m v : Nat) :
    b.read offset (n + m) = some v ↔
      ∃ low high, b.read offset n = some low ∧ b.read (offset + n) m = some high ∧
        v = low + 2 ^ (8 * n) * high := by
  have split : b.slice offset (n + m) = b.slice offset n ++ b.slice (offset + n) m := by
    rw [slice, slice, slice, List.take_add, List.drop_drop]
  have value (inside : offset + n ≤ b.bytes.length) :
      LittleEndian.decode (b.slice offset (n + m)) = LittleEndian.decode (b.slice offset n) +
        2 ^ (8 * n) * LittleEndian.decode (b.slice (offset + n) m) := by
    rw [split, LittleEndian.decode_append, length_slice inside, Nat.pow_eq,
      show 256 = 2 ^ 8 from rfl, ← Nat.pow_mul]
  simp only [read_eq_some_iff]
  constructor
  · rintro ⟨inside, rfl⟩
    exact ⟨_, _, ⟨by omega, rfl⟩, ⟨by omega, rfl⟩, value (by omega)⟩
  · rintro ⟨_, _, ⟨lower, rfl⟩, ⟨upper, rfl⟩, rfl⟩
    exact ⟨by omega, (value lower).symm⟩

/-- A read of one byte is that byte. -/
theorem read_one (v : Nat) :
    b.read offset 1 = some v ↔ ∃ byte, b.bytes[offset]? = some byte ∧ v = byte.toNat := by
  rw [read_eq_some_iff]
  constructor
  · rintro ⟨inside, rfl⟩
    have found := List.getElem?_eq_getElem (l := b.bytes) (i := offset) (by omega)
    refine ⟨_, found, ?_⟩
    rw [slice, List.take_one, List.head?_drop, found]
    rfl
  · rintro ⟨byte, found, rfl⟩
    have inside := (List.getElem?_eq_some_iff.mp found).1
    refine ⟨inside, ?_⟩
    rw [slice, List.take_one, List.head?_drop, found]
    rfl

end VirtioMmio.Config.Block
