/-!
Numbers as byte strings, least significant byte first. Main statements: `decode_encode` and
`encode_decode`, which make the two directions inverse up to the width of the byte string.
-/

namespace VirtioMmio.LittleEndian

/-- The low `n` bytes of `v`, least significant byte first. -/
def encode : Nat → Nat → List UInt8
  | 0, _ => []
  | n + 1, v => UInt8.ofNat v :: encode n (v / 256)

def decode : List UInt8 → Nat
  | [] => 0
  | b :: bs => b.toNat + 256 * decode bs

@[simp] theorem length_encode (n v : Nat) : (encode n v).length = n := by
  induction n generalizing v with
  | zero => rfl
  | succ n ih => simp [encode, ih]

theorem decode_lt (bs : List UInt8) : decode bs < Nat.pow 256 bs.length := by
  induction bs with
  | nil => simp [decode]
  | cons b bs ih =>
    have hb : b.toNat < 256 := b.toNat_lt
    simp only [Nat.pow_eq] at ih
    simp only [Nat.pow_eq, decode, List.length_cons, Nat.pow_succ]
    omega

/-- Writing a number in `n` bytes keeps it modulo `256 ^ n`. -/
theorem decode_encode (n v : Nat) : decode (encode n v) = v % Nat.pow 256 n := by
  induction n generalizing v with
  | zero => simp [encode, decode, Nat.mod_one]
  | succ n ih =>
    have low : (UInt8.ofNat v).toNat = v % 256 := UInt8.toNat_ofNat'
    rw [encode, decode, ih, low, Nat.pow_eq, Nat.pow_eq, Nat.pow_succ,
      Nat.mul_comm (256 ^ n) 256, Nat.mod_mul]

/-- Every byte string is the encoding of its own number. -/
theorem encode_decode (bs : List UInt8) : encode bs.length (decode bs) = bs := by
  induction bs with
  | nil => rfl
  | cons b bs ih =>
    have hb : b.toNat < 256 := b.toNat_lt
    have low : UInt8.ofNat (b.toNat + 256 * decode bs) = b := by
      apply UInt8.toNat_inj.mp
      rw [UInt8.toNat_ofNat']
      omega
    have high : (b.toNat + 256 * decode bs) / 256 = decode bs := by omega
    simp only [List.length_cons, decode, encode, low, high, ih]

/-- A byte string split in two is the low part plus the high part shifted up. -/
theorem decode_append (as bs : List UInt8) :
    decode (as ++ bs) = decode as + Nat.pow 256 as.length * decode bs := by
  induction as with
  | nil => simp [decode]
  | cons a as ih =>
    simp only [List.cons_append, decode, ih, List.length_cons, Nat.pow_eq, Nat.pow_succ]
    rw [Nat.mul_add, Nat.add_assoc, ← Nat.mul_assoc, Nat.mul_comm 256 (256 ^ as.length)]

end VirtioMmio.LittleEndian
