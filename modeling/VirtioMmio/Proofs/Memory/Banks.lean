import VirtioMmio.Proofs.Memory.Operations

/-!
Guest RAM in which every region has an allocation of its own, reached through the first region that
holds a range. Main result: `Bank.run_eq`. As regions share no byte, nothing that is heard of it
differs from what is heard of one store for all regions.
-/

namespace VirtioMmio.Memory

/-- A region with its bytes, which are counted from its base. -/
structure Bank where
  region : Region
  bytes : Store

namespace Bank

/-- Where `addr` lies among the bytes of the bank. -/
def offset (b : Bank) (addr : UInt64) : Nat :=
  addr.toNat - b.region.base.toNat

def regions (banks : List Bank) : List Region :=
  banks.map (·.region)

def protect (base : UInt64) (rights : Rights) (b : Bank) : Bank :=
  { b with region := b.region.protect base rights }

def write (addr : UInt64) (bytes : List UInt8) (b : Bank) : Bank :=
  { b with bytes := b.bytes.write (b.offset addr) bytes }

/-- The bank that an access to `[addr, addr + len)` reaches. -/
def find (banks : List Bank) (addr : UInt64) (len : Nat) (access : Rights) :
    Except MemoryError Bank :=
  match banks.find? (·.region.holds addr len) with
  | none => .error (.unmapped addr len)
  | some b =>
    if b.region.rights.includes access then .ok b else .error (.permission addr len access)

def perform (banks : List Bank) : Operation → List Bank × Response
  | .add base len rights =>
    match Ram.add { regions := regions banks } base len rights with
    | .ok _ => (banks ++ [⟨⟨base, len, rights⟩, Store.empty⟩], .done)
    | .error e => (banks, .refused e)
  | .protect base rights =>
    if banks.any (·.region.base == base) then
      let place := banks.findIdx (·.region.base == base)
      (banks.modify place fun b => { b with region.rights := rights }, .done)
    else (banks, .missing)
  | .read addr shape =>
    match find banks addr shape.size .reading with
    | .ok b => (banks, .value (shape.decode (b.bytes.read (b.offset addr) shape.size)))
    | .error e => (banks, .refused e)
  | .write addr value =>
    match find banks addr value.shape.size .writing with
    | .ok _ =>
      let place := banks.findIdx (·.region.holds addr value.shape.size)
      (banks.modify place (write addr value.encode), .done)
    | .error e => (banks, .refused e)

def run (banks : List Bank) : List Operation → List Bank × List Event
  | [] => (banks, [])
  | operation :: later =>
    let (banks, response) := perform banks operation
    let (banks, events) := run banks later
    (banks, (operation, response) :: events)

/-- The banks hold the bytes of the one store, in which no byte outside all regions was written. -/
structure Mirrors (banks : List Bank) (ram : Ram) : Prop where
  sound : ram.WellFormed
  regions : Bank.regions banks = ram.regions
  bytes : ∀ b ∈ banks, ∀ i < b.region.len,
    b.bytes.byte i = ram.store.byte (b.region.base.toNat + i)
  blank : ∀ a, (∀ r ∈ ram.regions, ¬ r.Owns a) → ram.store.byte a = 0

variable {banks : List Bank} {ram : Ram}

theorem mirrors_empty : Mirrors [] Ram.empty where
  sound := Ram.wellFormed_empty
  regions := rfl
  bytes _ member := nomatch member
  blank a _ := Store.byte_empty a

theorem Mirrors.mem (mirrors : Mirrors banks ram) {b : Bank} (member : b ∈ banks) :
    b.region ∈ ram.regions :=
  mirrors.regions ▸ List.mem_map_of_mem member

theorem Mirrors.find (mirrors : Mirrors banks ram) (addr : UInt64) (len : Nat) (access : Rights) :
    match Bank.find banks addr len access with
    | .ok b => ram.check addr len access = .ok () ∧ b ∈ banks ∧ b.region.holds addr len = true
    | .error e => ram.check addr len access = .error e := by
  have look : ram.regions.find? (·.holds addr len) =
      (banks.find? (·.region.holds addr len)).map (·.region) := by
    rw [← mirrors.regions, Bank.regions, List.find?_map]
    rfl
  rw [Bank.find, Ram.check, Ram.window, look]
  cases found : banks.find? (·.region.holds addr len) with
  | none => rfl
  | some b =>
    dsimp only [Option.map_some]
    cases b.region.rights.includes access with
    | false => rfl
    | true => exact ⟨rfl, List.mem_of_find?_eq_some found, by simpa using List.find?_some found⟩

theorem Mirrors.read (mirrors : Mirrors banks ram) {b : Bank} (member : b ∈ banks) {addr : UInt64}
    {len : Nat} (held : b.region.holds addr len = true) :
    b.bytes.read (b.offset addr) len = ram.store.read addr.toNat len := by
  obtain ⟨_, lower, upper⟩ := (b.region.holds_iff addr len).mp held
  apply List.map_congr_left
  intro i inside
  have short := List.mem_range.mp inside
  simp only [Region.stop] at upper
  rw [mirrors.bytes b member (b.offset addr + i) (by rw [offset]; omega), offset]
  congr 1
  omega

theorem mirrors_add (mirrors : Mirrors banks ram) {base : UInt64} {len : Nat} {rights : Rights}
    (sound : ({ ram with regions := ram.regions ++ [⟨base, len, rights⟩] } : Ram).WellFormed) :
    Mirrors (banks ++ [⟨⟨base, len, rights⟩, Store.empty⟩])
      { ram with regions := ram.regions ++ [⟨base, len, rights⟩] } where
  sound := sound
  regions := by rw [Bank.regions, List.map_append, ← mirrors.regions]; rfl
  bytes := by
    intro b member i inside
    rcases List.mem_append.mp member with old | new
    · exact mirrors.bytes b old i inside
    -- The bytes of the new region belonged to no region, so nobody has written them.
    · cases List.mem_singleton.mp new
      rw [Store.byte_empty]
      refine (mirrors.blank _ fun r present owns => ?_).symm
      have clear :=
        (List.pairwise_append.mp sound.apart).2.2 r present _ (List.mem_singleton_self _)
      simp only [Region.Apart, Region.Owns, Region.stop] at clear owns inside
      omega
  blank a unowned := mirrors.blank a fun r member => unowned r (List.mem_append_left _ member)

theorem mirrors_protect (mirrors : Mirrors banks ram) (base : UInt64) (rights : Rights) :
    Mirrors (banks.map (protect base rights))
      { ram with regions := ram.regions.map (·.protect base rights) } where
  sound := mirrors.sound.of_places (by simp [Function.comp_def])
  regions := by
    rw [Bank.regions, ← mirrors.regions, Bank.regions, List.map_map, List.map_map]
    rfl
  bytes := by
    intro b member i inside
    obtain ⟨old, present, rfl⟩ := List.mem_map.mp member
    have place := Region.place_protect base rights old.region
    simp only [Region.place, Prod.mk.injEq] at place
    rw [protect] at inside ⊢
    rw [place.1]
    exact mirrors.bytes old present i (place.2 ▸ inside)
  blank := by
    intro a unowned
    refine mirrors.blank a fun r member owns => ?_
    have place := Region.place_protect base rights r
    simp only [Region.place, Prod.mk.injEq] at place
    refine unowned _ (List.mem_map_of_mem member) ?_
    rw [Region.Owns, Region.stop, place.1, place.2]
    exact owns

/-- The write goes to the one bank that holds its range, and reaches no byte of another. -/
theorem mirrors_write (mirrors : Mirrors banks ram) {addr : UInt64} {bytes : List UInt8}
    {r : Region} (present : r ∈ ram.regions) (held : r.holds addr bytes.length = true) :
    Mirrors
      (banks.map fun b => if b.region.holds addr bytes.length then b.write addr bytes else b)
      { ram with store := ram.store.write addr.toNat bytes } where
  sound := mirrors.sound.of_regions rfl
  regions := by
    rw [Bank.regions, List.map_map, ← mirrors.regions]
    refine List.map_congr_left fun b _ => ?_
    simp only [Function.comp_apply]
    split <;> rfl
  bytes := by
    intro b member i inside
    obtain ⟨old, among, rfl⟩ := List.mem_map.mp member
    split at inside
    next holds =>
      have before := mirrors.bytes old among i inside
      obtain ⟨_, lower, _⟩ := (old.region.holds_iff addr bytes.length).mp holds
      rw [if_pos holds]
      change (old.bytes.write (old.offset addr) bytes).byte i =
        (ram.store.write addr.toNat bytes).byte (old.region.base.toNat + i)
      rw [Store.byte_write, Store.byte_write, before, offset]
      by_cases after : addr.toNat - old.region.base.toNat ≤ i
      · have index : old.region.base.toNat + i - addr.toNat =
            i - (addr.toNat - old.region.base.toNat) := by
          omega
        rw [if_pos after, if_pos (by omega), index]
      · rw [if_neg after, if_neg (by omega)]
    next other =>
      rw [if_neg other, mirrors.bytes old among i inside]
      refine (Store.byte_write_of_not_mem _ _ _ _ ?_).symm
      by_contra within
      -- The byte would belong to both regions.
      have owns := Region.owns_of_holds held (old.region.base.toNat + i - addr.toNat) (by omega)
      rw [Nat.add_sub_of_le (by omega)] at owns
      have owns' : old.region.Owns (old.region.base.toNat + i) :=
        ⟨Nat.le_add_right _ _, Nat.add_lt_add_left inside _⟩
      have same := mirrors.sound.owner_unique present (mirrors.mem among) owns owns'
      exact other (same ▸ held)
  blank := by
    intro a unowned
    rw [← mirrors.blank a unowned]
    refine Store.byte_write_of_not_mem _ _ _ _ ?_
    by_contra within
    have owns := Region.owns_of_holds held (a - addr.toNat) (by omega)
    rw [Nat.add_sub_of_le (by omega)] at owns
    exact unowned r present owns

/-- One bank at most holds a range that is not empty. -/
theorem Mirrors.single (mirrors : Mirrors banks ram) (addr : UInt64) {len : Nat}
    (nonempty : 0 < len) :
    banks.Pairwise fun b c =>
      ¬ (b.region.holds addr len = true ∧ c.region.holds addr len = true) := by
  have apart := mirrors.sound.apart
  rw [← mirrors.regions, Bank.regions, List.pairwise_map] at apart
  refine apart.imp fun {b c} clear => ?_
  rintro ⟨first, second⟩
  have owns := Region.owns_of_holds first 0 nonempty
  have owns' := Region.owns_of_holds second 0 nonempty
  simp only [Region.Apart, Region.Owns] at clear owns owns'
  omega

theorem Mirrors.modify_write (mirrors : Mirrors banks ram) {addr : UInt64} {bytes : List UInt8}
    {r : Region} (present : r ∈ ram.regions) (held : r.holds addr bytes.length = true) :
    Mirrors (banks.modify (banks.findIdx (·.region.holds addr bytes.length)) (write addr bytes))
      { ram with store := ram.store.write addr.toNat bytes } := by
  cases bytes with
  | nil =>
    have idle : write addr [] = id := rfl
    rw [idle, List.modify_id]
    exact mirrors
  | cons byte bytes =>
    have nonempty : 0 < (byte :: bytes).length := Nat.succ_pos _
    rw [Ram.modify_findIdx_eq_map (mirrors.single addr nonempty)]
    exact mirrors_write mirrors present held

/-- An operation does the same to the banks and to the one store, and is answered alike. -/
def Matches (banks : List Bank) (ram : Ram) (operation : Operation) : Prop :=
  Mirrors (perform banks operation).1 (ram.perform operation).1 ∧
    (perform banks operation).2 = (ram.perform operation).2

theorem Mirrors.add (mirrors : Mirrors banks ram) (base : UInt64) (len : Nat) (rights : Rights) :
    Matches banks ram (.add base len rights) := by
  have same := ram.add_eq base len rights
  simp only [Matches, perform, mirrors.regions]
  cases added : Ram.add { regions := ram.regions } base len rights with
  | error e =>
    rw [added] at same
    simp only [Ram.perform, same]
    exact ⟨mirrors, rfl⟩
  | ok layout =>
    rw [added] at same
    simp only [Ram.perform, same]
    exact ⟨mirrors_add mirrors (mirrors.sound.add same), rfl⟩

theorem Mirrors.protect (mirrors : Mirrors banks ram) (base : UInt64) (rights : Rights) :
    Matches banks ram (.protect base rights) := by
  have any : ram.regions.any (·.base == base) = banks.any (·.region.base == base) := by
    rw [← mirrors.regions, Bank.regions, List.any_map]
    rfl
  have single := mirrors.sound.bases base
  rw [← mirrors.regions, Bank.regions, List.pairwise_map] at single
  have changed : (banks.map fun b =>
      if b.region.base == base then { b with region.rights := rights } else b) =
        banks.map (Bank.protect base rights) := by
    refine List.map_congr_left fun b _ => ?_
    simp only [Bank.protect, Region.protect, beq_iff_eq]
    split <;> rfl
  simp only [Matches, Ram.perform, Ram.setRights_eq mirrors.sound, perform, any]
  split
  next =>
    rw [Ram.modify_findIdx_eq_map single, changed]
    exact ⟨mirrors_protect mirrors base rights, rfl⟩
  next => exact ⟨mirrors, rfl⟩

theorem Mirrors.fetch (mirrors : Mirrors banks ram) (addr : UInt64) (shape : Shape) :
    Matches banks ram (.read addr shape) := by
  have done := Ram.performed mirrors.sound (.read addr shape)
  have found := mirrors.find addr shape.size .reading
  rw [Matches]
  generalize ram.perform (.read addr shape) = after at done ⊢
  simp only [perform]
  cases reached : Bank.find banks addr shape.size .reading with
  | error e =>
    rw [reached] at found
    cases done with
    | read granted => cases granted.symm.trans found
    | unread refused =>
      cases refused.symm.trans found
      exact ⟨mirrors, rfl⟩
  | ok b =>
    rw [reached] at found
    obtain ⟨granted, member, held⟩ := found
    cases done with
    | read =>
      rw [← mirrors.read member held]
      exact ⟨mirrors, rfl⟩
    | unread refused => cases refused.symm.trans granted

theorem Mirrors.put (mirrors : Mirrors banks ram) (addr : UInt64) (value : Value) :
    Matches banks ram (.write addr value) := by
  have done := Ram.performed mirrors.sound (.write addr value)
  have found := mirrors.find addr value.shape.size .writing
  rw [Matches]
  generalize ram.perform (.write addr value) = after at done ⊢
  simp only [perform]
  cases reached : Bank.find banks addr value.shape.size .writing with
  | error e =>
    rw [reached] at found
    cases done with
    | written granted => cases granted.symm.trans found
    | unwritten refused =>
      cases refused.symm.trans found
      exact ⟨mirrors, rfl⟩
  | ok b =>
    rw [reached] at found
    obtain ⟨granted, member, held⟩ := found
    cases done with
    | unwritten refused => cases refused.symm.trans granted
    | written =>
      rw [← value.length_encode] at held ⊢
      exact ⟨mirrors.modify_write (mirrors.mem member) held, rfl⟩

/-- Nothing is heard of the banks that is not heard of the one store, and they stay alike. -/
theorem mirrors_perform (mirrors : Mirrors banks ram) (operation : Operation) :
    Matches banks ram operation := by
  cases operation with
  | add base len rights => exact mirrors.add base len rights
  | protect base rights => exact mirrors.protect base rights
  | read addr shape => exact mirrors.fetch addr shape
  | write addr value => exact mirrors.put addr value

theorem run_eq (operations : List Operation) :
    (run [] operations).2 = (Ram.empty.run operations).2 := by
  have general (banks : List Bank) (ram : Ram) (mirrors : Mirrors banks ram) :
      (run banks operations).2 = (ram.run operations).2 := by
    induction operations generalizing banks ram with
    | nil => rfl
    | cons operation later ih =>
      obtain ⟨still, same⟩ := mirrors_perform mirrors operation
      simp only [run, Ram.run]
      rw [same, ih _ _ still]
  exact general [] Ram.empty mirrors_empty

end Bank

end VirtioMmio.Memory
