import VirtioMmio.Proofs.Memory.Banks

/-!
Guest RAM as a flat memory of bytes. Main result: `Ram.flat_memory`. Whatever was done since it was
empty, an access is granted by the one region that holds its range, reads give what was last written
byte by byte, and nothing but a granted write changes a byte.
-/

namespace VirtioMmio.Memory

/-- The byte that an event left at `a`, if it wrote there. -/
def byteAt? (a : Nat) : Event → Option UInt8
  | (.write addr value, .done) => if addr.toNat ≤ a then value.encode[a - addr.toNat]? else none
  | _ => none

/-- The byte last written at `a`, zero if none was. -/
def lastByte (events : List Event) (a : Nat) : UInt8 :=
  (events.filterMap (byteAt? a)).getLast?.getD 0

namespace Ram

variable {ram : Ram}

/-- One region holds all of `[addr, addr + len)` and grants the access. -/
def Covers (ram : Ram) (addr : UInt64) (len : Nat) (access : Rights) : Prop :=
  ∃ r ∈ ram.regions, r.base.toNat ≤ addr.toNat ∧ addr.toNat + len ≤ r.stop ∧
    r.rights.includes access = true

theorem check_eq_ok_iff_covers (sound : ram.WellFormed) {addr : UInt64} {len : Nat}
    {access : Rights} (nonempty : 0 < len) :
    ram.check addr len access = .ok () ↔ ram.Covers addr len access := by
  constructor
  · intro passed
    obtain ⟨r, member, held, right⟩ := check_region passed
    obtain ⟨_, lower, upper⟩ := (r.holds_iff addr len).mp held
    exact ⟨r, member, lower, upper, right⟩
  · rintro ⟨r, member, lower, upper, right⟩
    have bound := sound.bounded r member
    have held := (r.holds_iff addr len).mpr ⟨by omega, lower, upper⟩
    exact (ram.check_eq_ok_iff addr len access).mpr ⟨r, sound.find_holds member held nonempty, right⟩

/-! ### Bytes -/

theorem byte_perform (sound : ram.WellFormed) (operation : Operation) (a : Nat) :
    (ram.perform operation).1.store.byte a =
      (byteAt? a (operation, (ram.perform operation).2)).getD (ram.store.byte a) := by
  have performed := performed sound operation
  generalize ram.perform operation = after at performed ⊢
  cases performed with
  | added grown => rw [grown]; rfl
  | written =>
    rw [Store.byte_write, byteAt?]
    split <;> rfl
  | unadded | changed | missing | read | unread | unwritten => rfl

/-- The last of the events that wrote at an address decides the byte there. -/
theorem byte_run (sound : ram.WellFormed) (operations : List Operation) (a : Nat) :
    (ram.run operations).1.store.byte a =
      ((ram.run operations).2.filterMap (byteAt? a)).getLast?.getD (ram.store.byte a) := by
  induction operations generalizing ram with
  | nil => rfl
  | cons operation later ih =>
    have step := byte_perform sound operation a
    simp only [run]
    rw [ih (wellFormed_perform sound operation), step, List.filterMap_cons]
    cases byteAt? a (operation, (ram.perform operation).2) with
    | none => rfl
    | some b => rw [List.getLast?_cons]; rfl

/-! ### Operations -/

/-- The memory does what a flat memory that holds `bytes` does, within its regions. -/
structure ActsAs (ram : Ram) (bytes : Nat → UInt8) : Prop where
  add : ∀ base len rights {ram' response},
    ram.perform (.add base len rights) = (ram', response) →
      (∀ a, ram'.store.byte a = bytes a) ∧
      (response = .done ∧ ram'.regions = ram.regions ++ [⟨base, len, rights⟩] ∨
        (∃ e, response = .refused e) ∧ ram' = ram)
  protect : ∀ base rights {ram' response},
    ram.perform (.protect base rights) = (ram', response) →
      (∀ a, ram'.store.byte a = bytes a) ∧
      ((∃! r, r ∈ ram.regions ∧ r.base = base) ∧ response = .done ∧
          ram'.regions = ram.regions.map (·.protect base rights) ∨
        (∀ r ∈ ram.regions, r.base ≠ base) ∧ response = .missing ∧ ram' = ram)
  read : ∀ addr shape {ram' response},
    ram.perform (.read addr shape) = (ram', response) →
      let range := (List.range shape.size).map fun i => bytes (addr.toNat + i)
      ram' = ram ∧
      (0 < shape.size → ((∃ v, response = .value v) ↔ ram.Covers addr shape.size .reading)) ∧
      ∀ v, response = .value v → v = shape.decode range ∧ v.encode = range
  write : ∀ addr value {ram' response},
    ram.perform (.write addr value) = (ram', response) →
      ram'.regions = ram.regions ∧
      (0 < value.shape.size →
        (response = .done ↔ ram.Covers addr value.shape.size .writing)) ∧
      (response = .done →
        (∀ i b, value.encode[i]? = some b → ram'.store.byte (addr.toNat + i) = b) ∧
        ∀ a, a < addr.toNat ∨ addr.toNat + value.shape.size ≤ a → ram'.store.byte a = bytes a) ∧
      (response ≠ .done → ram' = ram)

theorem actsAs (sound : ram.WellFormed) : ram.ActsAs ram.store.byte where
  add base len rights ram' response done := by
    have performed := performed sound (.add base len rights)
    rw [done] at performed
    cases performed with
    | added grown => exact ⟨fun a => by rw [grown], .inl ⟨rfl, by rw [grown]⟩⟩
    | unadded e => exact ⟨fun _ => rfl, .inr ⟨⟨e, rfl⟩, rfl⟩⟩
  protect base rights ram' response done := by
    have performed := performed sound (.protect base rights)
    rw [done] at performed
    cases performed with
    | missing missing =>
      exact ⟨fun _ => rfl, .inr ⟨fun r member start => missing ⟨r, member, start⟩, rfl, rfl⟩⟩
    | changed found =>
      obtain ⟨r, member, start⟩ := found
      refine ⟨fun _ => rfl, .inl ⟨⟨r, ⟨member, start⟩, ?_⟩, rfl, rfl⟩⟩
      rintro s ⟨among, same⟩
      -- Two regions with one base would both own the byte there.
      have owns := Region.owns_base (sound.nonempty r member)
      have owns' := Region.owns_base (sound.nonempty s among)
      rw [same, ← start] at owns'
      exact sound.owner_unique among member owns' owns
  read addr shape ram' response done := by
    have performed := performed sound (.read addr shape)
    rw [done] at performed
    cases performed with
    | read granted =>
      refine ⟨rfl, fun nonempty => ?_, ?_⟩
      · exact iff_of_true ⟨_, rfl⟩ ((check_eq_ok_iff_covers sound nonempty).mp granted)
      · rintro v ⟨⟩
        exact ⟨rfl, Shape.encode_decode (Store.length_read _ _ _)⟩
    | unread refused =>
      refine ⟨rfl, fun nonempty => ?_, fun v heard => nomatch heard⟩
      rw [← check_eq_ok_iff_covers sound nonempty, refused]
      simp
  write addr value ram' response done := by
    have performed := performed sound (.write addr value)
    rw [done] at performed
    cases performed with
    | written granted =>
      -- Granted means covered by one region with the right; then the bytes inside, then the others.
      refine ⟨rfl, fun nonempty => ?_, fun _ => ⟨?_, ?_⟩, fun not => absurd rfl not⟩
      · exact iff_of_true rfl ((check_eq_ok_iff_covers sound nonempty).mp granted)
      · intro i b here
        rw [Store.byte_write, if_pos (Nat.le_add_right _ _), Nat.add_sub_cancel_left, here,
          Option.getD_some]
      · intro a outside
        rw [← value.length_encode] at outside
        exact Store.byte_write_of_not_mem _ _ _ _ outside
    | unwritten refused =>
      refine ⟨rfl, fun nonempty => ?_, (nomatch ·), fun _ => rfl⟩
      rw [← check_eq_ok_iff_covers sound nonempty, refused]
      simp

/-- After any operations since the memory was empty its regions are not empty, disjoint and end
below `2 ^ 64`, and it is a flat memory in which every byte is the one that was last written there.
An access is granted if one region holds all of its range and has the rights for it. That all
regions share a store is not to be seen: with a store for each, the same is heard. -/
theorem flat_memory (past : List Operation) {events : List Event}
    (reached : Ram.empty.run past = (ram, events)) :
    (∀ r ∈ ram.regions, 0 < r.len ∧ r.stop ≤ 2 ^ 64 - 1) ∧
      ram.regions.Pairwise Region.Apart ∧
      ram.ActsAs (lastByte events) ∧
      (Bank.run [] past).2 = events := by
  have sound : ram.WellFormed := by
    have kept := wellFormed_run wellFormed_empty past
    rwa [reached] at kept
  have bytes : ram.store.byte = lastByte events := by
    funext a
    have last := byte_run wellFormed_empty past a
    rw [reached] at last
    rw [last, lastByte]
    rfl
  refine ⟨?_, sound.apart, bytes ▸ actsAs sound, by rw [Bank.run_eq, reached]⟩
  intro r member
  exact ⟨sound.nonempty r member, Nat.le_sub_one_of_lt (sound.bounded r member)⟩

/-! The second region would overlap the first and is refused. The first and the third have a border,
which no access crosses. -/

def sampleHistory : List Operation :=
  [.add 0x1000 0x1000 .both, .add 0x1800 0x1000 .both, .add 0x2000 0x1000 .both,
    .write 0x1ffc (.number 4 0x4030201), .write 0x1ffd (.number 1 0xff), .protect 0x1000 .reading,
    .write 0x1ffc (.plain [7]), .write 0x1fff (.number 2 0)]

theorem sampleHistory_flat :
    ∃ ram events, Ram.empty.run sampleHistory = (ram, events) ∧ ram.ActsAs (lastByte events) ∧
      (ram.perform (.read 0x1ffc (.number 4))).2 = .value (.number 4 0x403ff01) := by
  generalize reached : Ram.empty.run sampleHistory = last
  obtain ⟨ram, events⟩ := last
  obtain ⟨_, _, acts, _⟩ := flat_memory sampleHistory reached
  refine ⟨ram, events, rfl, acts, ?_⟩
  have covers : ram.Covers 0x1ffc 4 .reading := by
    have same : (Ram.empty.run sampleHistory).1 = ram := by rw [reached]
    rw [← same]
    exact ⟨⟨0x1000, 0x1000, .reading⟩, by decide +kernel⟩
  have range : ((List.range 4).map fun i => lastByte events ((0x1ffc : UInt64).toNat + i)) =
      [1, 0xff, 3, 4] := by
    have same : (Ram.empty.run sampleHistory).2 = events := by rw [reached]
    rw [← same]
    decide +kernel
  generalize done : ram.perform (.read 0x1ffc (.number 4)) = after
  obtain ⟨ram', response⟩ := after
  obtain ⟨_, granted, bytes⟩ := acts.read _ _ done
  obtain ⟨v, heard⟩ := (granted (Nat.succ_pos 3)).mpr covers
  rw [heard, (bytes v heard).1, Shape.size, range]
  rfl

end Ram

end VirtioMmio.Memory
