import VirtioMmio.Bytes.LittleEndian

/-!
Numbers as byte strings, most significant byte first: the byte order of a flattened device tree.
-/

namespace VirtioMmio.BigEndian

/-- The low `n` bytes of `v`, most significant byte first. -/
def encode (n v : Nat) : List UInt8 :=
  (LittleEndian.encode n v).reverse

def decode (bs : List UInt8) : Nat :=
  LittleEndian.decode bs.reverse

/-- The four-byte number in front of `bytes`, and the bytes after it. -/
def readCell (bytes : List UInt8) : Option (Nat × List UInt8) :=
  if 4 ≤ bytes.length then some (decode (bytes.take 4), bytes.drop 4) else none

@[simp] theorem length_encode (n v : Nat) : (encode n v).length = n := by
  simp [encode]

theorem decode_encode (n v : Nat) : decode (encode n v) = v % Nat.pow 256 n := by
  simp [decode, encode, LittleEndian.decode_encode]

theorem encode_decode (bs : List UInt8) : encode bs.length (decode bs) = bs := by
  have inverse := LittleEndian.encode_decode bs.reverse
  rw [List.length_reverse] at inverse
  simp [encode, decode, inverse]

/-- A byte string split in two is the front part shifted up plus the back part. -/
theorem decode_append (as bs : List UInt8) :
    decode (as ++ bs) = decode bs + Nat.pow 256 bs.length * decode as := by
  rw [decode, List.reverse_append, LittleEndian.decode_append, List.length_reverse, decode, decode]

end VirtioMmio.BigEndian
