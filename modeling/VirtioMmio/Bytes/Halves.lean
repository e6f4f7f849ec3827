/-!
Words written half by half, as registers of 32 bits make up one of 64. Main statements: each of the
two operations sets its own half and leaves the other, and `ext`, by which the halves make up the
word.
-/

namespace VirtioMmio.Halves

def withLow (word : UInt64) (half : UInt32) : UInt64 :=
  (word &&& (0xffffffff00000000 : UInt64)) ||| half.toUInt64

def withHigh (word : UInt64) (half : UInt32) : UInt64 :=
  (word &&& (0xffffffff : UInt64)) ||| (half.toUInt64 <<< 32)

def low (word : UInt64) : UInt32 := word.toUInt32
def high (word : UInt64) : UInt32 := (word >>> 32).toUInt32

theorem low_withLow (word : UInt64) (half : UInt32) : low (withLow word half) = half := by
  apply UInt32.toBitVec_inj.mp
  ext i inside
  simp [low, withLow]

theorem high_withLow (word : UInt64) (half : UInt32) : high (withLow word half) = high word := by
  have ones : ∀ i : Fin 32, (0xffffffff00000000#64).getLsbD (32 + i.val) = true := by decide
  apply UInt32.toBitVec_inj.mp
  ext i inside
  simpa [high, withLow] using fun _ => ones ⟨i, inside⟩

theorem low_withHigh (word : UInt64) (half : UInt32) : low (withHigh word half) = low word := by
  have ones : ∀ i : Fin 32, (0xffffffff#32)[i.val] = true := by decide
  apply UInt32.toBitVec_inj.mp
  ext i inside
  simpa [low, withHigh] using fun _ => ones ⟨i, inside⟩

theorem high_withHigh (word : UInt64) (half : UInt32) : high (withHigh word half) = half := by
  have zeros : ∀ i : Fin 32, (0xffffffff#64).getLsbD (32 + i.val) = false := by decide
  apply UInt32.toBitVec_inj.mp
  ext i inside
  have zero := zeros ⟨i, inside⟩
  have inWord : 32 + i < 64 := by omega
  have inHalf : i < 64 := by omega
  simp_all [high, withHigh, BitVec.getLsbD_eq_getElem]

/-- The number a word stands for is made up of its halves. -/
theorem toNat_eq (word : UInt64) :
    word.toNat = (low word).toNat + 0x1_0000_0000 * (high word).toNat := by
  have bound := word.toNat_lt
  have amount : (32 : UInt64).toNat % 64 = 32 := rfl
  rw [low, high, UInt64.toNat_toUInt32, UInt64.toNat_toUInt32, UInt64.toNat_shiftRight, amount,
    Nat.shiftRight_eq_div_pow]
  omega

theorem ext {word word' : UInt64} (lows : low word = low word') (highs : high word = high word') :
    word = word' := by
  apply UInt64.toNat_inj.mp
  rw [toNat_eq word, toNat_eq word', lows, highs]

end VirtioMmio.Halves
