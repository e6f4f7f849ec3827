import VirtioMmio.Memory.Window

/-!
Typed access to memory that the guest changes at any time. A pointer to an address that suits its
type moves the value at once, any other pointer byte by byte. `Pointer.load_eq` and
`Pointer.store_eq`: which of the two happens cannot be told from the bytes. `Window.checkWord` is
the check of a window as it is computed on machine words, and `Window.checkWord_eq` and
`Window.subWord_eq` say that no sum that wraps round passes it.
-/

namespace VirtioMmio.Memory

/-- The place of a value of `size` bytes, which is `aligned` where `alignment` divides it. -/
structure Pointer where
  addr : Nat
  size : Nat
  alignment : Nat
  deriving DecidableEq, Repr

namespace Pointer

def isAligned (p : Pointer) : Bool :=
  p.addr % p.alignment == 0

/-- The bytes of the value, which is zero before its bytes arrive one by one. -/
def load (p : Pointer) (s : Store) : List UInt8 :=
  if p.isAligned then s.read p.addr p.size
  else (List.range p.size).foldl (fun value i => value.set i (s.byte (p.addr + i)))
    (List.replicate p.size 0)

def store (p : Pointer) (s : Store) (value : List UInt8) : Store :=
  if p.isAligned then s.write p.addr value
  else value.zipIdx.foldl (fun s (byte, i) => s.set (p.addr + i) byte) s

/-- The first `n` steps put the first `n` elements in place and leave the rest. -/
theorem foldl_set_eq {α : Type} (element : Nat → α) (l : List α) (n : Nat) (short : n ≤ l.length) :
    (List.range n).foldl (fun l i => l.set i (element i)) l =
      (List.range n).map element ++ l.drop n := by
  induction n with
  | zero => simp
  | succ n ih =>
    have inside : n < l.length := short
    have middle : ((List.range n).map element).length = n := by simp
    rw [List.range_succ, List.foldl_append, ih (Nat.le_of_lt inside), List.map_append,
      List.drop_eq_getElem_cons inside]
    simp only [List.foldl_cons, List.foldl_nil, List.map_cons, List.map_nil, List.append_assoc,
      List.cons_append, List.nil_append]
    rw [List.set_append_right n (element n) (Nat.le_of_eq middle), middle, Nat.sub_self,
      List.set_cons_zero]

theorem load_eq (p : Pointer) (s : Store) : p.load s = s.read p.addr p.size := by
  simp only [load]
  split
  · rfl
  · rw [foldl_set_eq _ _ _ (by simp)]
    simp [Store.read]

/-- Byte by byte from the `k`-th on, each at its own distance from the start. -/
theorem foldl_zipIdx_eq_write (s : Store) (a k : Nat) (value : List UInt8) :
    (value.zipIdx k).foldl (fun s (byte, i) => s.set (a + i) byte) s = s.write (a + k) value := by
  induction value generalizing s k with
  | nil => rfl
  | cons byte value ih =>
    rw [List.zipIdx_cons, List.foldl_cons, ih, Store.write, Nat.add_assoc]

theorem store_eq (p : Pointer) (s : Store) (value : List UInt8) :
    p.store s value = s.write p.addr value := by
  simp only [store]
  split
  · rfl
  · exact foldl_zipIdx_eq_write s p.addr 0 value

end Pointer

namespace Window

/-- `check` on words of 64 bits, whose sum may wrap round. -/
def checkWord (w : Window) (offset len : UInt64) : Except MemoryError Unit :=
  if ¬ BitVec.uaddOverflow offset.toBitVec len.toBitVec ∧ (offset + len).toNat ≤ w.len then .ok ()
  else .error (.outOfBounds offset.toNat len.toNat w.len)

theorem checkWord_eq {w : Window} (small : w.len < UInt64.size) (offset len : UInt64) :
    w.checkWord offset len = w.check offset.toNat len.toNat := by
  have wraps : BitVec.uaddOverflow offset.toBitVec len.toBitVec = true ↔
      2 ^ 64 ≤ offset.toNat + len.toNat := by
    simp only [BitVec.uaddOverflow, decide_eq_true_eq]
    rfl
  have fits : (¬ BitVec.uaddOverflow offset.toBitVec len.toBitVec ∧
      (offset + len).toNat ≤ w.len) ↔ offset.toNat + len.toNat ≤ w.len := by
    have limit : UInt64.size = 2 ^ 64 := rfl
    rw [wraps, UInt64.toNat_add]
    omega
  simp only [checkWord, check, fits]

/-- `sub` by the check on words. -/
def subWord (w : Window) (offset len : UInt64) : Except MemoryError Window :=
  match w.checkWord offset len with
  | .ok () => .ok ⟨w.start + offset.toNat, len.toNat⟩
  | .error e => .error e

theorem subWord_eq {w : Window} (small : w.len < UInt64.size) (offset len : UInt64) :
    w.subWord offset len = w.sub offset.toNat len.toNat := by
  rw [subWord, checkWord_eq small]
  rfl

/-- The place of a value in the window. Any alignment will do. -/
def pointer (w : Window) (offset size alignment : Nat) : Except MemoryError Pointer :=
  match w.check offset size with
  | .ok () => .ok ⟨w.start + offset, size, alignment⟩
  | .error e => .error e

def load (w : Window) (s : Store) (offset size alignment : Nat) :
    Except MemoryError (List UInt8) :=
  (w.pointer offset size alignment).map (·.load s)

def store (w : Window) (s : Store) (offset alignment : Nat) (value : List UInt8) :
    Except MemoryError Store :=
  (w.pointer offset value.length alignment).map (·.store s value)

theorem load_eq_read (w : Window) (s : Store) (offset size alignment : Nat) :
    w.load s offset size alignment = w.read s offset size := by
  simp only [load, pointer, read]
  cases w.check offset size with
  | ok => exact congrArg Except.ok (Pointer.load_eq _ s)
  | error e => rfl

theorem store_eq_write (w : Window) (s : Store) (offset alignment : Nat) (value : List UInt8) :
    w.store s offset alignment value = w.write s offset value := by
  simp only [store, pointer, write]
  cases w.check offset value.length with
  | ok => exact congrArg Except.ok (Pointer.store_eq _ s value)
  | error e => rfl

end Window

end VirtioMmio.Memory
