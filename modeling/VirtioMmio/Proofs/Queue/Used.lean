import VirtioMmio.Proofs.Queue.Available

/-!
The used ring in guest-physical memory. Returning a chain is two stores: `fillUsed` puts the entry
into its slot, and `countUsed` makes the index count it. `UsedHolds` says what the ring tells a
driver that read some of the entries; filling the next slot does not disturb it, and counting adds
the entry. `nextUsed_eq` is the driver's side: it finds the next entry, if there is one.

Main result about the device: `storeUsed_eq` and `publishUsed_eq`. Where the two stores go, and what
the index becomes, follows from the number of chains returned before, not from the ring.
-/

namespace VirtioMmio.Queue

open Vring (Layout Part)
open Dma (Space)
open Memory (Rights Store)

/-! ### Entries as bytes -/

/-- An entry of the used ring as a driver reads it: a head and a number of bytes. -/
def usedEntry (s : Store) (a : Nat) : UInt32 × UInt32 :=
  (s.doubleWord a, s.doubleWord (a + 4))

theorem usedEntry_congr {s t : Store} {a : Nat}
    (same : ∀ i < 8, s.byte (a + i) = t.byte (a + i)) : usedEntry s a = usedEntry t a := by
  have head : s.doubleWord a = t.doubleWord a :=
    Store.doubleWord_congr fun i less => same i (by omega)
  have len : s.doubleWord (a + 4) = t.doubleWord (a + 4) := by
    apply Store.doubleWord_congr
    intro i less
    have there := same (4 + i) (by omega)
    rwa [← Nat.add_assoc] at there
  rw [usedEntry, head, len, usedEntry]

/-- A driver reads what was written. -/
theorem usedEntry_write (s : Store) (a : Nat) (head : UInt16) (len : UInt32) :
    usedEntry (s.write a (Virtqueue.encodeUsed head len)) a = (head.toUInt32, len) := by
  have back := Store.read_write s a (Virtqueue.encodeUsed head len)
  rw [Virtqueue.length_encodeUsed] at back
  have four (v : Nat) : (LittleEndian.encode 4 v).length = 4 := LittleEndian.length_encode 4 v
  -- The eight bytes at `a` fall into the four of the head and the four of the length.
  have first : (s.write a (Virtqueue.encodeUsed head len)).read a 4 =
      LittleEndian.encode 4 head.toUInt32.toNat := by
    have part := Store.take_drop_read (s.write a (Virtqueue.encodeUsed head len)) a 8 0 4 (by decide)
    rw [back, Virtqueue.encodeUsed, List.drop_zero, List.take_left' (four _)] at part
    rw [UInt16.toNat_toUInt32]
    exact part.symm
  have second : (s.write a (Virtqueue.encodeUsed head len)).read (a + 4) 4 =
      LittleEndian.encode 4 len.toNat := by
    have part := Store.take_drop_read (s.write a (Virtqueue.encodeUsed head len)) a 8 4 4 (by decide)
    rw [back, Virtqueue.encodeUsed, List.drop_left' (four _), List.take_of_length_le
      (Nat.le_of_eq (four _))] at part
    exact part.symm
  rw [usedEntry, Store.doubleWord, Store.doubleWord, first, second,
    LittleEndian.ofNat_decode_encode, LittleEndian.ofNat_decode_encode]

/-! ### What a driver finds -/

/-- The used ring of a layout starts at `base` in guest-physical memory. -/
def UsedStarts (l : Layout) (s : Space) (base : Nat) : Prop :=
  s.locate l.used (Part.used.bytes l.size) .writing = .ok base

/-- The guest-physical address of used entry `n`. -/
def usedSlot (l : Layout) (base n : Nat) : Nat :=
  base + 4 + 8 * (n % l.size.toNat)

/-- Used entry `n` filled but not yet counted. -/
def fillUsed (l : Layout) (base : Nat) (s : Store) (n : Nat) (head : UInt16) (len : UInt32) :
    Store :=
  s.write (usedSlot l base n) (Virtqueue.encodeUsed head len)

/-- An index that counts `n` used entries, modulo `2 ^ 16`. -/
def countUsed (base : Nat) (s : Store) (n : Nat) : Store :=
  s.write (base + 2) (LittleEndian.encode 2 (UInt16.ofNat n).toNat)

/-- What a driver that read `seen` entries reads next: nothing until the index shows more, and then
the entry in the next slot. -/
def nextUsed (l : Layout) (base : Nat) (s : Store) (seen : Nat) : Option (UInt32 × UInt32) :=
  if s.word (base + 2) = .ofNat seen then none else some (usedEntry s (usedSlot l base seen))

/-- The used ring shows that `returned` went into it, to a driver that read `seen` entries of it. -/
structure UsedHolds (l : Layout) (base : Nat) (s : Store) (seen : Nat)
    (returned : List (UInt32 × UInt32)) : Prop where
  index : s.word (base + 2) = .ofNat returned.length
  slots : ∀ n entry, seen ≤ n → returned[n]? = some entry →
    usedEntry s (usedSlot l base n) = entry

/-- The bytes of the used ring that a driver relies on: its index and its entries. -/
def UsedSpared (l : Layout) (base : Nat) (before after : Store) : Prop :=
  Spared (base + 2) (2 + 8 * l.size.toNat) before after

namespace UsedHolds

variable {l : Layout} {base seen : Nat} {s : Store} {returned : List (UInt32 × UInt32)}

theorem of_spared (holds : UsedHolds l base s seen returned) (placed : l.Placed) {after : Store}
    (spared : UsedSpared l base s after) : UsedHolds l base after seen returned := by
  refine ⟨?_, ?_⟩
  · have index : after.word (base + 2 + 0) = s.word (base + 2 + 0) := spared.word (by omega)
    exact index.trans holds.index
  · intro n entry later listed
    have less : n % l.size.toNat < l.size.toNat := Nat.mod_lt _ placed.size_pos
    have same : usedEntry after (usedSlot l base n) = usedEntry s (usedSlot l base n) := by
      apply usedEntry_congr
      intro i inside
      have there := spared (2 + 8 * (n % l.size.toNat) + i) (by omega)
      have address : base + 2 + (2 + 8 * (n % l.size.toNat) + i) = usedSlot l base n + i := by
        rw [usedSlot]
        omega
      rwa [address] at there
    exact same.trans (holds.slots n entry later listed)

/-- Between the two stores the ring still shows what it showed before. -/
theorem fill (holds : UsedHolds l base s seen returned)
    (room : returned.length < seen + l.size.toNat) (head : UInt16) (len : UInt32) :
    UsedHolds l base (fillUsed l base s returned.length head len) seen returned := by
  have eight := Virtqueue.length_encodeUsed head len
  refine ⟨?_, ?_⟩
  · rw [fillUsed, Store.word_write_of_apart _ _ _ _ (by simp only [usedSlot]; omega)]
    exact holds.index
  · -- Fewer entries are unread than there are slots, so an unread entry has another slot.
    intro n entry later listed
    have before : n < returned.length := (List.getElem?_eq_some_iff.mp listed).1
    have different := slots_apart before (by omega : returned.length < n + l.size.toNat)
    rw [← holds.slots n entry later listed]
    apply usedEntry_congr
    intro i inside
    apply Store.byte_write_of_not_mem
    simp only [usedSlot]
    omega

/-- Once the index counts it, the filled entry is one more that was returned. -/
theorem count (holds : UsedHolds l base s seen returned) {entry : UInt32 × UInt32}
    (filled : usedEntry s (usedSlot l base returned.length) = entry) :
    UsedHolds l base (countUsed base s (returned.length + 1)) seen (returned ++ [entry]) := by
  have two : (LittleEndian.encode 2 (UInt16.ofNat (returned.length + 1)).toNat).length = 2 :=
    LittleEndian.length_encode 2 _
  have kept (n : Nat) : usedEntry (countUsed base s (returned.length + 1)) (usedSlot l base n) =
      usedEntry s (usedSlot l base n) := by
    apply usedEntry_congr
    intro i inside
    apply Store.byte_write_of_not_mem
    simp only [usedSlot]
    omega
  refine ⟨?_, ?_⟩
  · rw [countUsed, Store.word_write, List.length_append, List.length_singleton]
  · intro n other later listed
    rw [kept]
    rcases Nat.lt_or_ge n returned.length with old | new
    · rw [List.getElem?_append_left old] at listed
      exact holds.slots n other later listed
    · obtain ⟨short, _⟩ := List.getElem?_eq_some_iff.mp listed
      rw [List.length_append, List.length_singleton] at short
      have last : n = returned.length := by omega
      subst last
      rw [List.getElem?_concat_length, Option.some.injEq] at listed
      exact filled.trans listed

/-- Reading an entry makes its slot free. -/
theorem step (holds : UsedHolds l base s seen returned) :
    UsedHolds l base s (seen + 1) returned := by
  refine ⟨holds.index, ?_⟩
  intro n entry later listed
  exact holds.slots n entry (by omega) listed

/-- A driver that is behind by no more than the ring holds finds the entry it did not read yet. -/
theorem nextUsed_eq (holds : UsedHolds l base s seen returned) (behind : seen ≤ returned.length)
    (room : returned.length ≤ seen + l.size.toNat) :
    nextUsed l base s seen = returned[seen]? := by
  have sizeSmall := l.size.toNat_lt
  have ahead : (UInt16.ofNat returned.length - UInt16.ofNat seen).toNat = returned.length - seen :=
    toNat_sub_ofNat behind (by omega)
  rw [nextUsed, holds.index]
  rcases Nat.eq_or_lt_of_le behind with all | more
  · rw [← all, if_pos rfl, all, List.getElem?_eq_none (Nat.le_refl _)]
  · -- The ring is shorter than `2 ^ 16`, so an index that counts more also differs.
    have differ : UInt16.ofNat returned.length ≠ UInt16.ofNat seen := by
      intro same
      rw [same, UInt16.sub_self, UInt16.toNat_zero] at ahead
      omega
    have listed := List.getElem?_eq_getElem more
    rw [if_neg differ, listed, holds.slots _ _ (Nat.le_refl _) listed]

end UsedHolds

/-! ### The two stores of the device -/

section Storing

variable {q : Virtqueue} {s : Space} {base n : Nat}

/-- A part of the used ring is located at its distance from the start. -/
theorem locate_used (sound : s.ram.WellFormed) (starts : UsedStarts q.layout s base)
    {addr : UInt64} {k m : Nat} (exact : addr.toNat = q.layout.used.toNat + k)
    (inside : k + m ≤ Part.used.bytes q.layout.size) (nonempty : 0 < m) :
    s.locate addr m .writing = .ok (base + k) :=
  Space.locate_part sound starts exact inside nonempty
    (by decide : Rights.writing.includes .writing = true)

theorem storeUsed_eq (placed : q.layout.Placed) (sound : s.ram.WellFormed)
    (starts : UsedStarts q.layout s base) (position : q.chainsReturned = .ofNat n) (head : UInt16)
    (len : UInt32) :
    q.storeUsed s head len =
      .ok { s.ram with store := fillUsed q.layout base s.ram.store n head len } := by
  have slotLess : n % q.layout.size.toNat < q.layout.size.toNat := Nat.mod_lt _ placed.size_pos
  have entryAddr : q.usedEntryAddr.toNat =
      q.layout.used.toNat + (4 + 8 * (n % q.layout.size.toNat)) := by
    rw [toNat_usedEntryAddr placed, position, ← UInt16.toNat_mod, toNat_ofNat_mod n placed.power]
  have located := locate_used (m := 8) sound starts entryAddr (by simp only [Part.bytes]; omega)
    (by decide)
  rw [Virtqueue.storeUsed, Space.write_eq, Virtqueue.length_encodeUsed, located, ← Nat.add_assoc]
  rfl

theorem publishUsed_eq (placed : q.layout.Placed) (sound : s.ram.WellFormed)
    (starts : UsedStarts q.layout s base) (position : q.chainsReturned = .ofNat n) :
    q.publishUsed s = .ok { s.ram with store := countUsed base s.ram.store (n + 1) } := by
  have located := locate_used (m := 2) sound starts (toNat_usedIndexAddr placed)
    (by simp only [Part.bytes]; omega) (by decide)
  have next : q.chainsReturned + 1 = .ofNat (n + 1) := by
    rw [position]
    exact (UInt16.ofNat_add n 1).symm
  rw [Virtqueue.publishUsed, Space.write16_eq, located, next]
  rfl

theorem UsedStarts.withStore (starts : UsedStarts q.layout s base) (store : Store) :
    UsedStarts q.layout { s with ram := { s.ram with store } } base :=
  (Space.locate_congr rfl rfl rfl _ _ _).trans starts

theorem putUsed_eq (placed : q.layout.Placed) (sound : s.ram.WellFormed)
    (starts : UsedStarts q.layout s base) (position : q.chainsReturned = .ofNat n) (head : UInt16)
    (len : UInt32) :
    q.putUsed s head len =
      ({ s.ram with
        store := countUsed base (fillUsed q.layout base s.ram.store n head len) (n + 1) },
        .ok ()) := by
  have stored := storeUsed_eq placed sound starts position head len
  have counted := publishUsed_eq (s := { s with
      ram := { s.ram with store := fillUsed q.layout base s.ram.store n head len } }) placed
    (sound.of_regions rfl) (starts.withStore _) position
  rw [Virtqueue.putUsed, stored]
  dsimp only
  rw [counted]

/-- Both stores stay inside the used ring. -/
theorem spared_putUsed (placed : q.layout.Placed) {other bytes : Nat} (store : Store) (n : Nat)
    (head : UInt16) (len : UInt32)
    (apart : other + bytes ≤ base ∨ base + Part.used.bytes q.layout.size ≤ other) :
    Spared other bytes store
      (countUsed base (fillUsed q.layout base store n head len) (n + 1)) := by
  have slotLess : n % q.layout.size.toNat < q.layout.size.toNat := Nat.mod_lt _ placed.size_pos
  have eight := Virtqueue.length_encodeUsed head len
  have two : (LittleEndian.encode 2 (UInt16.ofNat (n + 1)).toNat).length = 2 :=
    LittleEndian.length_encode 2 _
  simp only [Part.bytes] at apart
  have filled : Spared other bytes store (fillUsed q.layout base store n head len) :=
    spared_write _ (by simp only [usedSlot]; omega)
  have counted : Spared other bytes (fillUsed q.layout base store n head len)
      (countUsed base (fillUsed q.layout base store n head len) (n + 1)) :=
    spared_write _ (by omega)
  intro i less
  exact (counted i less).trans (filled i less)

end Storing

end VirtioMmio.Queue
