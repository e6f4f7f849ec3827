import Std.Data.TreeMap

/-!
A sparse store of bytes. Every address holds a byte, zero until it is written, so a store is a
function from addresses to bytes; only written bytes take room. Main statements: `byte_set`,
`byte_write` and `read_write`, which describe every operation through `Store.byte`.
-/

namespace VirtioMmio.Memory

structure Store where
  written : Std.TreeMap Nat UInt8 := {}

namespace Store

/-- The store in which every byte is zero. -/
def empty : Store := {}

def byte (s : Store) (a : Nat) : UInt8 :=
  s.written.getD a 0

def set (s : Store) (a : Nat) (b : UInt8) : Store :=
  ⟨s.written.insert a b⟩

def read (s : Store) (a n : Nat) : List UInt8 :=
  (List.range n).map fun i => s.byte (a + i)

def write (s : Store) (a : Nat) : List UInt8 → Store
  | [] => s
  | b :: bytes => (s.set a b).write (a + 1) bytes

@[simp] theorem byte_empty (a : Nat) : empty.byte a = 0 := by
  simp [byte, empty]

theorem byte_set (s : Store) (a x : Nat) (b : UInt8) :
    (s.set a b).byte x = if a = x then b else s.byte x := by
  simp only [byte, set, Std.TreeMap.getD_insert, Nat.compare_eq_eq]

@[simp] theorem length_read (s : Store) (a n : Nat) : (s.read a n).length = n := by
  simp [read]

theorem getElem?_read (s : Store) (a n i : Nat) (inside : i < n) :
    (s.read a n)[i]? = some (s.byte (a + i)) := by
  simp [read, inside]

/-- A write changes the addressed bytes and no other. -/
theorem byte_write (s : Store) (a : Nat) (bytes : List UInt8) (x : Nat) :
    (s.write a bytes).byte x =
      if a ≤ x then (bytes[x - a]?).getD (s.byte x) else s.byte x := by
  induction bytes generalizing s a with
  | nil => simp [write]
  | cons b bytes ih =>
    rw [write, ih, byte_set]
    by_cases here : a = x
    · subst here
      rw [if_neg (by omega)]
      simp
    · rw [if_neg here]
      by_cases after : a + 1 ≤ x
      · have index : x - a = (x - (a + 1)) + 1 := by omega
        rw [if_pos after, if_pos (by omega), index, List.getElem?_cons_succ]
      · rw [if_neg after, if_neg (by omega)]

theorem read_write (s : Store) (a : Nat) (bytes : List UInt8) :
    (s.write a bytes).read a bytes.length = bytes := by
  apply List.ext_getElem?
  intro i
  by_cases inside : i < bytes.length
  · rw [getElem?_read _ _ _ _ inside, byte_write, if_pos (by omega)]
    simp [inside]
  · rw [List.getElem?_eq_none (by simpa using inside), List.getElem?_eq_none (by omega)]

end Store

end VirtioMmio.Memory
