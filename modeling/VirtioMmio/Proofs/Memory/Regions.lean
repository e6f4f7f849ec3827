import Mathlib.Algebra.Group.Nat.Defs
import Mathlib.Data.List.Pairwise
import VirtioMmio.Memory.Ram

/-!
Guest RAM as a map of disjoint regions. One region at most holds an address, so a range that passes
a check passes it piece by piece: `check_part`. Reads and writes are a check followed by an access
to the store: `read_eq` and `write_eq`.
-/

namespace VirtioMmio

theorem LittleEndian.ofNat_decode_encode (v : UInt32) :
    UInt32.ofNat (decode (encode 4 v.toNat)) = v := by
  have small : v.toNat < Nat.pow 256 4 := v.toNat_lt
  rw [decode_encode, Nat.mod_eq_of_lt small]
  exact UInt32.ofNat_toNat

namespace Memory

/-! ### Ranges -/

/-- The address is one of the `len` from `start` on. Addresses are unbounded numbers here. -/
def InRange (start : UInt64) (len a : Nat) : Prop :=
  start.toNat ≤ a ∧ a < start.toNat + len

/-- No address is in both ranges. -/
def Separate (start : UInt64) (len : Nat) (start' : UInt64) (len' : Nat) : Prop :=
  ∀ a, ¬ (InRange start len a ∧ InRange start' len' a)

theorem separate_iff {start start' : UInt64} {len len' : Nat} (nonempty : 0 < len)
    (nonempty' : 0 < len') :
    Separate start len start' len' ↔
      start.toNat + len ≤ start'.toNat ∨ start'.toNat + len' ≤ start.toNat := by
  simp only [Separate, InRange]
  constructor
  · intro apart
    have later := apart (max start.toNat start'.toNat)
    omega
  · intro apart a both
    omega

namespace Store

theorem byte_write_of_not_mem (s : Store) (a : Nat) (bytes : List UInt8) (x : Nat)
    (outside : x < a ∨ a + bytes.length ≤ x) : (s.write a bytes).byte x = s.byte x := by
  rw [byte_write]
  split
  · next after =>
    have beyond : bytes.length ≤ x - a := by omega
    rw [List.getElem?_eq_none beyond]
    rfl
  · rfl

theorem read_congr {s t : Store} {a n : Nat} (same : ∀ i < n, s.byte (a + i) = t.byte (a + i)) :
    s.read a n = t.read a n := by
  apply List.map_congr_left
  intro i member
  exact same i (List.mem_range.mp member)

theorem read_write_of_apart (s : Store) (a n b : Nat) (bytes : List UInt8)
    (apart : a + n ≤ b ∨ b + bytes.length ≤ a) : (s.write b bytes).read a n = s.read a n := by
  apply read_congr
  intro i inside
  exact byte_write_of_not_mem s b bytes (a + i) (by omega)

theorem take_drop_read (s : Store) (a n k m : Nat) (inside : k + m ≤ n) :
    ((s.read a n).drop k).take m = s.read (a + k) m := by
  apply List.ext_getElem?
  intro i
  by_cases short : i < m
  · rw [List.getElem?_take_of_lt short, List.getElem?_drop, getElem?_read _ _ _ _ (by omega),
      getElem?_read _ _ _ _ short, Nat.add_assoc]
  · rw [List.getElem?_eq_none (by simp; omega), List.getElem?_eq_none (by simpa using short)]

/-- The little-endian number in the two bytes at `a`. -/
def word (s : Store) (a : Nat) : UInt16 :=
  UInt16.ofNat (LittleEndian.decode (s.read a 2))

theorem word_write (s : Store) (a : Nat) (v : UInt16) :
    (s.write a (LittleEndian.encode 2 v.toNat)).word a = v := by
  have back := read_write s a (LittleEndian.encode 2 v.toNat)
  rw [LittleEndian.length_encode] at back
  have small : v.toNat < Nat.pow 256 2 := v.toNat_lt
  rw [word, back, LittleEndian.decode_encode, Nat.mod_eq_of_lt small]
  exact UInt16.ofNat_toNat

theorem word_write_of_apart (s : Store) (a b : Nat) (bytes : List UInt8)
    (apart : a + 2 ≤ b ∨ b + bytes.length ≤ a) : (s.write b bytes).word a = s.word a := by
  rw [word, read_write_of_apart s a 2 b bytes apart, word]

theorem word_congr {s t : Store} {a : Nat} (same : ∀ i < 2, s.byte (a + i) = t.byte (a + i)) :
    s.word a = t.word a := by
  rw [word, read_congr same, word]

/-- The little-endian number in the four bytes at `a`. -/
def doubleWord (s : Store) (a : Nat) : UInt32 :=
  UInt32.ofNat (LittleEndian.decode (s.read a 4))

theorem doubleWord_congr {s t : Store} {a : Nat}
    (same : ∀ i < 4, s.byte (a + i) = t.byte (a + i)) : s.doubleWord a = t.doubleWord a := by
  rw [doubleWord, read_congr same, doubleWord]

end Store

namespace Region

def Owns (r : Region) (a : Nat) : Prop :=
  r.base.toNat ≤ a ∧ a < r.stop

def Apart (r s : Region) : Prop :=
  r.stop ≤ s.base.toNat ∨ s.stop ≤ r.base.toNat

/-- Everything about a region but its rights. -/
def place (r : Region) : UInt64 × Nat :=
  (r.base, r.len)

def PlacesApart (p q : UInt64 × Nat) : Prop :=
  p.1.toNat + p.2 ≤ q.1.toNat ∨ q.1.toNat + q.2 ≤ p.1.toNat

theorem owns_of_holds {r : Region} {addr : UInt64} {len : Nat} (held : r.holds addr len = true)
    (i : Nat) (inside : i < len) : r.Owns (addr.toNat + i) := by
  obtain ⟨_, lower, upper⟩ := (r.holds_iff addr len).mp held
  exact ⟨by omega, by omega⟩

theorem owns_base {r : Region} (nonempty : 0 < r.len) : r.Owns r.base.toNat :=
  ⟨Nat.le_refl _, Nat.lt_add_of_pos_right nonempty⟩

theorem holds_part {r : Region} {addr part : UInt64} {len k m : Nat}
    (held : r.holds addr len = true) (start : part.toNat = addr.toNat + k) (inside : k + m ≤ len) :
    r.holds part m = true := by
  obtain ⟨ends, lower, upper⟩ := (r.holds_iff addr len).mp held
  exact (r.holds_iff part m).mpr ⟨by omega, by omega, by omega⟩

end Region

namespace Ram

/-- What additions guarantee: every region holds some address and ends at one, and no two regions
share any. -/
structure WellFormed (ram : Ram) : Prop where
  nonempty : ∀ r ∈ ram.regions, 0 < r.len
  bounded : ∀ r ∈ ram.regions, r.stop < 2 ^ 64
  apart : ram.regions.Pairwise Region.Apart

theorem wellFormed_empty : Ram.empty.WellFormed where
  nonempty _ member := nomatch member
  bounded _ member := nomatch member
  apart := .nil

/-- A region is added if it holds some address, ends at one, can be allocated and meets no other. -/
theorem add_eq_ok_iff (ram ram' : Ram) (base : UInt64) (len : Nat) (rights : Rights) :
    ram.add base len rights = .ok ram' ↔
      (0 < len ∧ base.toNat + len < 2 ^ 64 ∧ len ≤ maxRegion) ∧
        (∀ r ∈ ram.regions, r.Apart ⟨base, len, rights⟩) ∧
        ram' = { ram with regions := ram.regions ++ [⟨base, len, rights⟩] } := by
  have clear : ¬ ram.regions.any (·.meets base len) = true ↔
      ∀ r ∈ ram.regions, r.Apart ⟨base, len, rights⟩ := by
    simp only [List.any_eq_true, not_exists, not_and]
    refine forall₂_congr fun r _ => ?_
    simp only [Region.meets, Bool.and_eq_true, decide_eq_true_eq]
    simp only [Region.Apart, Region.stop]
    omega
  -- The four checks in the order in which they are made.
  rw [Ram.add, ← clear]
  split
  next beyond =>
    simp only [reduceCtorEq, false_iff]
    omega
  next bounded =>
  split
  next empty =>
    simp only [reduceCtorEq, false_iff]
    omega
  next nonempty =>
  split
  next met => simp only [reduceCtorEq, met, not_true, false_and, and_false]
  next free =>
  split
  next huge =>
    simp only [reduceCtorEq, false_iff]
    omega
  next small =>
    have fits : 0 < len ∧ base.toNat + len < 2 ^ 64 ∧ len ≤ maxRegion := by omega
    rw [Except.ok.injEq, eq_comm]
    exact ⟨fun grown => ⟨fits, free, grown⟩, fun ⟨_, _, grown⟩ => grown⟩

theorem WellFormed.add {ram ram' : Ram} (sound : ram.WellFormed) {base : UInt64} {len : Nat}
    {rights : Rights} (added : ram.add base len rights = .ok ram') : ram'.WellFormed := by
  obtain ⟨⟨nonempty, bounded, _⟩, clear, rfl⟩ := (add_eq_ok_iff ..).mp added
  constructor
  · intro r member
    rcases List.mem_append.mp member with old | new
    · exact sound.nonempty r old
    · rw [List.mem_singleton.mp new]
      exact nonempty
  · intro r member
    rcases List.mem_append.mp member with old | new
    · exact sound.bounded r old
    · rw [List.mem_singleton.mp new]
      exact bounded
  · refine List.pairwise_append.mpr ⟨sound.apart, List.pairwise_singleton _ _, ?_⟩
    intro r old s new
    rw [List.mem_singleton.mp new]
    exact clear r old

/-- Rights and contents do not matter. -/
theorem WellFormed.of_places {ram ram' : Ram} (sound : ram.WellFormed)
    (same : ram'.regions.map Region.place = ram.regions.map Region.place) : ram'.WellFormed := by
  have twin : ∀ r ∈ ram'.regions, ∃ s ∈ ram.regions, r.base = s.base ∧ r.len = s.len := by
    intro r member
    have placed : r.place ∈ ram.regions.map Region.place := same ▸ List.mem_map_of_mem member
    obtain ⟨s, old, equal⟩ := List.mem_map.mp placed
    simp only [Region.place, Prod.mk.injEq] at equal
    exact ⟨s, old, equal.1.symm, equal.2.symm⟩
  have apart : (ram'.regions.map Region.place).Pairwise Region.PlacesApart := by
    rw [same]
    exact List.pairwise_map.mpr sound.apart
  constructor
  · intro r member
    obtain ⟨s, old, _, len⟩ := twin r member
    exact len ▸ sound.nonempty s old
  · intro r member
    obtain ⟨s, old, base, len⟩ := twin r member
    have bound := sound.bounded s old
    simp only [Region.stop] at *
    rw [base, len]
    exact bound
  · exact (List.pairwise_map.mp apart : ram'.regions.Pairwise fun r s =>
      Region.PlacesApart r.place s.place)

theorem WellFormed.of_regions {ram ram' : Ram} (sound : ram.WellFormed)
    (same : ram'.regions = ram.regions) : ram'.WellFormed :=
  sound.of_places (by rw [same])

theorem places_setRights {ram ram' : Ram} {base : UInt64} {rights : Rights}
    (done : ram.setRights base rights = some ram') :
    ram'.regions.map Region.place = ram.regions.map Region.place := by
  simp only [setRights] at done
  split at done
  · cases done
    apply List.ext_getElem?
    intro i
    simp only [List.getElem?_map, List.getElem?_modify]
    cases ram.regions[i]? with
    | none => rfl
    | some r => split <;> rfl
  · cases done

theorem WellFormed.owner_unique {ram : Ram} (sound : ram.WellFormed) {r s : Region} {a : Nat}
    (first : r ∈ ram.regions) (second : s ∈ ram.regions) (inFirst : r.Owns a)
    (inSecond : s.Owns a) : r = s := by
  have symmetric : Std.Symm Region.Apart := ⟨fun _ _ => Or.symm⟩
  by_contra different
  have apart : r.Apart s := sound.apart.forall first second different
  simp only [Region.Apart, Region.Owns] at *
  omega

/-! ### Checks -/

theorem check_eq_ok_iff (ram : Ram) (addr : UInt64) (len : Nat) (access : Rights) :
    ram.check addr len access = .ok () ↔
      ∃ r, ram.regions.find? (·.holds addr len) = some r ∧ r.rights.includes access = true := by
  simp only [check]
  constructor
  · intro passed
    split at passed
    · next w granted =>
      obtain ⟨r, found, right, _⟩ := (ram.window_eq_ok_iff addr len access w).mp granted
      exact ⟨r, found, right⟩
    · cases passed
  · rintro ⟨r, found, right⟩
    rw [(ram.window_eq_ok_iff addr len access ⟨addr.toNat, len⟩).mpr ⟨r, found, right, rfl⟩]

/-- A check looks at the regions only. -/
theorem check_congr {ram ram' : Ram} (same : ram'.regions = ram.regions) (addr : UInt64)
    (len : Nat) (access : Rights) : ram'.check addr len access = ram.check addr len access := by
  simp only [check, window, same]

theorem check_region {ram : Ram} {addr : UInt64} {len : Nat} {access : Rights}
    (passed : ram.check addr len access = .ok ()) :
    ∃ r ∈ ram.regions, r.holds addr len = true ∧ r.rights.includes access = true := by
  obtain ⟨r, found, right⟩ := (ram.check_eq_ok_iff addr len access).mp passed
  exact ⟨r, List.mem_of_find?_eq_some found, by simpa using List.find?_some found, right⟩

/-- The first region that holds a range is the only one, unless the range is empty. -/
theorem WellFormed.find_holds {ram : Ram} (sound : ram.WellFormed) {r : Region} {addr : UInt64}
    {len : Nat} (member : r ∈ ram.regions) (held : r.holds addr len = true) (nonempty : 0 < len) :
    ram.regions.find? (·.holds addr len) = some r := by
  cases found : ram.regions.find? (·.holds addr len) with
  | none =>
    have absent := List.find?_eq_none.mp found r member
    exact absurd held absent
  | some s =>
    have heldS : s.holds addr len = true := by simpa using List.find?_some found
    have inS : s.Owns addr.toNat := Region.owns_of_holds heldS 0 nonempty
    have inR : r.Owns addr.toNat := Region.owns_of_holds held 0 nonempty
    rw [sound.owner_unique member (List.mem_of_find?_eq_some found) inR inS]

/-- What holds of a range holds of every non-empty part of it, with the same rights or fewer. -/
theorem check_part {ram : Ram} (sound : ram.WellFormed) {addr part : UInt64} {len k m : Nat}
    {access less : Rights} (passed : ram.check addr len access = .ok ())
    (start : part.toNat = addr.toNat + k) (inside : k + m ≤ len) (nonempty : 0 < m)
    (fewer : access.includes less = true) : ram.check part m less = .ok () := by
  obtain ⟨r, member, held, right⟩ := check_region passed
  have holdsPart := Region.holds_part held start inside
  -- The first region that holds the part may come before the one that holds the whole range, so
  -- it takes disjointness to see that they are the same.
  have found := sound.find_holds member holdsPart nonempty
  exact (ram.check_eq_ok_iff part m less).mpr ⟨r, found, Rights.includes_trans right fewer⟩

/-! ### Accesses -/

theorem window_of_check {ram : Ram} {addr : UInt64} {len : Nat} {access : Rights}
    (passed : ram.check addr len access = .ok ()) :
    ram.window addr len access = .ok ⟨addr.toNat, len⟩ := by
  obtain ⟨r, found, right⟩ := (ram.check_eq_ok_iff addr len access).mp passed
  exact (ram.window_eq_ok_iff addr len access _).mpr ⟨r, found, right, rfl⟩

theorem window_of_check_error {ram : Ram} {addr : UInt64} {len : Nat} {access : Rights}
    {e : MemoryError} (refused : ram.check addr len access = .error e) :
    ram.window addr len access = .error e := by
  simp only [check] at refused
  split at refused
  · cases refused
  · next other => rw [other, Except.error.inj refused]

theorem read_eq (ram : Ram) (addr : UInt64) (len : Nat) :
    ram.read addr len =
      (ram.check addr len .reading).map fun _ => ram.store.read addr.toNat len := by
  cases checked : ram.check addr len .reading with
  | ok => simp [read, window_of_check checked, Window.read, Window.check, Except.map]
  | error e => simp [read, window_of_check_error checked, Except.map]

theorem write_eq (ram : Ram) (addr : UInt64) (bytes : List UInt8) :
    ram.write addr bytes =
      (ram.check addr bytes.length .writing).map fun _ =>
        { ram with store := ram.store.write addr.toNat bytes } := by
  cases checked : ram.check addr bytes.length .writing with
  | ok => simp [write, window_of_check checked, Window.write, Window.check, Except.map]
  | error e => simp [write, window_of_check_error checked, Except.map]

end Ram

end Memory

end VirtioMmio
