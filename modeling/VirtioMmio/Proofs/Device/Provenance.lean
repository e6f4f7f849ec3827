import VirtioMmio.Proofs.Config.Bytes
import VirtioMmio.Proofs.Device.Generation

/-!
Where the bytes of the configuration block come from. The driver changes bytes inside a writable
range and the host changes any; so a byte outside every writable range is what the host gave last,
after any run. Main result: `config_bytes_from_writers`, about a device in any state.
-/

namespace VirtioMmio

open Config (Block)
open Transport (RegisterFile configSpace)

/-- The widths in which the driver may access the configuration space. -/
def configWidths : List UInt8 := [1, 2, 4, 8]

theorem toNat_le_of_mem_configWidths {size : UInt8} (width : size ∈ configWidths) :
    size.toNat ≤ 8 := by
  simp only [configWidths, List.mem_cons, List.not_mem_nil, or_false] at width
  rcases width with rfl | rfl | rfl | rfl <;> decide

theorem Transport.RegisterFile.checkWidth_configSpace {offset : UInt64} {size : UInt8}
    (inside : configSpace ≤ offset) :
    checkWidth offset size = .ok () ↔ size ∈ configWidths := by
  have front : ¬ offset < configSpace := UInt64.not_lt.mpr inside
  have listed : size ∈ configWidths ↔ (size == 1 || size == 2 || size == 4 || size == 8) = true := by
    simp [configWidths, or_assoc]
  simp only [checkWidth, if_neg front, listed]
  cases size == 1 || size == 2 || size == 4 || size == 8 <;> simp

theorem Transport.RegisterFile.mem_configWidths_of_write {t t' : RegisterFile} {m m' : Machine}
    {offset value : UInt64} {size : UInt8} (inside : configSpace ≤ offset)
    (done : t.write m offset size value = .ok (t', m')) : size ∈ configWidths := by
  unfold write at done
  split at done
  · cases done
  next fits => exact (checkWidth_configSpace inside).mp fits

namespace Device

variable {d : Device}

/-! ### Reads -/

/-- A number that is read from the block fits in a word. -/
theorem toNat_of_block_read {offset : Nat} {size : UInt8} (width : size ∈ configWidths) {n : Nat}
    (found : d.block.read offset size.toNat = some n) : (UInt64.ofNat n).toNat = n := by
  have short := toNat_le_of_mem_configWidths width
  have fits : n < 2 ^ 64 :=
    Nat.lt_of_lt_of_le (Block.lt_of_read found) (Nat.pow_le_pow_right (by decide) (by omega))
  rw [UInt64.toNat_ofNat', Nat.mod_eq_of_lt fits]

/-- A read of the configuration space is a read of the block. -/
theorem access_read_eq_ok_iff {offset : UInt64} {size : UInt8} (inside : configSpace ≤ offset)
    (width : size ∈ configWidths) (v : UInt64) :
    (d.access .read offset size).2 = .ok v ↔
      d.block.read (offset - configSpace).toNat size.toNat = some v.toNat := by
  rw [read_configSpace d size inside, (RegisterFile.checkWidth_configSpace inside).mpr width]
  dsimp only
  cases found : d.block.read (offset - configSpace).toNat size.toNat with
  | none => simp
  | some n =>
    have exact := toNat_of_block_read width found
    simp only [Except.ok.injEq, Option.some.injEq, ← UInt64.toNat_inj, exact]

theorem access_read_of_block_read {offset : UInt64} {size : UInt8} (inside : configSpace ≤ offset)
    (width : size ∈ configWidths) {n : Nat}
    (found : d.block.read (offset - configSpace).toNat size.toNat = some n) :
    (d.access .read offset size).2 = .ok (.ofNat n) := by
  rw [access_read_eq_ok_iff inside width, toNat_of_block_read width found]
  exact found

/-- Reads of the configuration space see one array of bytes: every byte by itself, and the lower
half of a wide read below the upper half. -/
structure Coherent (d : Device) : Prop where
  succeeds : ∀ offset size, configSpace ≤ offset → size ∈ configWidths →
    ((∃ v, (d.access .read offset size).2 = .ok v) ↔
      (offset - configSpace).toNat + size.toNat ≤ d.block.bytes.length)
  single : ∀ offset, configSpace ≤ offset → ∀ v, (d.access .read offset 1).2 = .ok v ↔
    ∃ byte, d.block.bytes[(offset - configSpace).toNat]? = some byte ∧ v = byte.toUInt64
  halves : ∀ offset upper n, configSpace ≤ offset → 2 * n ∈ configWidths → n ∈ configWidths →
    upper.toNat = offset.toNat + n.toNat → ∀ v, (d.access .read offset (2 * n)).2 = .ok v ↔
      ∃ low high, (d.access .read offset n).2 = .ok low ∧ (d.access .read upper n).2 = .ok high ∧
        v.toNat = low.toNat + 2 ^ (8 * n.toNat) * high.toNat

/-- The offset that lies `n` bytes further on lies so in the block too. -/
theorem toNat_sub_configSpace {offset upper : UInt64} {n : Nat} (inside : configSpace ≤ offset)
    (next : upper.toNat = offset.toNat + n) :
    configSpace ≤ upper ∧ (upper - configSpace).toNat = (offset - configSpace).toNat + n := by
  have above : configSpace ≤ upper := by
    rw [UInt64.le_iff_toNat_le] at inside ⊢
    omega
  refine ⟨above, ?_⟩
  rw [UInt64.toNat_sub_of_le _ _ above, UInt64.toNat_sub_of_le _ _ inside]
  rw [UInt64.le_iff_toNat_le] at inside
  omega

theorem coherent (d : Device) : d.Coherent where
  succeeds offset size inside width := by
    constructor
    · rintro ⟨v, read⟩
      exact ((Block.read_eq_some_iff _ _).mp ((access_read_eq_ok_iff inside width v).mp read)).1
    · intro within
      exact ⟨_, access_read_of_block_read inside width
        ((Block.read_eq_some_iff _ _).mpr ⟨within, rfl⟩)⟩
  single offset inside v := by
    rw [access_read_eq_ok_iff inside (by decide)]
    refine (Block.read_one v.toNat).trans (exists_congr fun byte => and_congr_right fun _ => ?_)
    rw [← UInt64.toNat_inj, UInt8.toNat_toUInt64]
  halves offset upper n inside wide width next v := by
    obtain ⟨above, place⟩ := toNat_sub_configSpace inside next
    -- Widths are at most eight, so twice a width still is a byte.
    have double : (2 * n).toNat = n.toNat + n.toNat := by
      have short := toNat_le_of_mem_configWidths width
      rw [UInt8.toNat_mul, show (2 : UInt8).toNat = 2 from rfl]
      omega
    rw [access_read_eq_ok_iff inside wide, double, Block.read_add]
    constructor
    · rintro ⟨low, high, lower, upper, same⟩
      rw [← place] at upper
      refine ⟨_, _, access_read_of_block_read inside width lower,
        access_read_of_block_read above width upper, ?_⟩
      rw [toNat_of_block_read width lower, toNat_of_block_read width upper, same]
    · rintro ⟨low, high, lower, upper, same⟩
      rw [access_read_eq_ok_iff inside width] at lower
      rw [access_read_eq_ok_iff above width, place] at upper
      exact ⟨_, _, lower, upper, same⟩

/-! ### Writes -/

/-- What can change byte `i` of the block: a write by the driver inside one writable range, and a
revision by the host, over that byte. -/
inductive Rewrites (d : Device) (i : Nat) : Action → Prop
  | driver {value offset : UInt64} {size : UInt8} (inside : configSpace ≤ offset)
      (opened : d.block.Opens (offset - configSpace).toNat size.toNat)
      (starts : (offset - configSpace).toNat ≤ i)
      (ends : i < (offset - configSpace).toNat + size.toNat) :
      Rewrites d i (.access (.write value) offset size)
  | host {offset : Nat} {bytes : List UInt8} (starts : offset ≤ i)
      (ends : i < offset + bytes.length) : Rewrites d i (.revise offset bytes)

theorem rewrites_of_change {action : Action} {i : Nat}
    (changed : (d.step action).1.block.bytes[i]? ≠ d.block.bytes[i]?) : d.Rewrites i action := by
  obtain ⟨takes, keeps⟩ := d.block_step action
  by_cases stores : ∃ offset bytes, d.Stores action offset bytes
  · obtain ⟨offset, bytes, stores⟩ := stores
    have after := (takes offset bytes stores).getElem? i
    -- What a write does not cover stays.
    have covered : offset ≤ i ∧ i < offset + bytes.length := by
      by_contra outside
      rw [if_neg outside] at after
      exact changed after
    cases stores with
    | driver inside taken =>
      obtain ⟨_, written⟩ := block_access_configSpace inside taken
      rw [LittleEndian.length_encode] at covered
      exact .driver inside (Block.opens_of_write written).1 covered.1 covered.2
    | host taken => exact .host covered.1 covered.2
  · have same := keeps fun offset bytes here => stores ⟨offset, bytes, here⟩
    rw [same] at changed
    exact absurd rfl changed

/-- A write to the configuration space that is taken is read back, in its width, and leaves every
other byte as it was. -/
structure ReadsBack (d : Device) (value offset : UInt64) (size : UInt8) : Prop where
  same : ((d.access (.write value) offset size).1.access .read offset size).2 =
    .ok (.ofNat (value.toNat % 2 ^ (8 * size.toNat)))
  others : ∀ i, i < (offset - configSpace).toNat ∨ (offset - configSpace).toNat + size.toNat ≤ i →
    (d.access (.write value) offset size).1.block.bytes[i]? = d.block.bytes[i]?

theorem readsBack {value offset answer : UInt64} {size : UInt8} (inside : configSpace ≤ offset)
    (taken : (d.access (.write value) offset size).2 = .ok answer) :
    d.ReadsBack value offset size := by
  obtain ⟨changed, written⟩ := block_access_configSpace inside taken
  obtain ⟨registers, machine, done, _⟩ := access_taken taken
  have width := RegisterFile.mem_configWidths_of_write inside done
  refine ⟨access_read_of_block_read inside width (Block.read_written written), ?_⟩
  intro i outside
  rw [(Block.takes_write written).getElem? i, LittleEndian.length_encode, if_neg (by omega)]

/-! ### Runs -/

theorem length_step (d : Device) (action : Action) :
    (d.step action).1.block.bytes.length = d.block.bytes.length := by
  obtain ⟨takes, keeps⟩ := d.block_step action
  by_cases stores : ∃ offset bytes, d.Stores action offset bytes
  · obtain ⟨offset, bytes, stores⟩ := stores
    exact (takes offset bytes stores).length
  · rw [keeps fun offset bytes here => stores ⟨offset, bytes, here⟩]

theorem writable_step (d : Device) (action : Action) :
    (d.step action).1.block.writable = d.block.writable := by
  by_cases stores : ∃ offset bytes, d.Stores action offset bytes
  · obtain ⟨offset, bytes, stores⟩ := stores
    cases stores with
    | driver inside taken =>
      obtain ⟨_, written⟩ := block_access_configSpace inside taken
      exact (Block.opens_of_write written).2
    | host taken =>
      obtain ⟨changed, block, revised, same⟩ := reviseConfig_eq_ok taken
      simp only [step, taken]
      rw [same]
      exact Block.writable_revise revised
  · rw [(d.block_step action).2 fun offset bytes here => stores ⟨offset, bytes, here⟩]

/-- No writable range holds the byte. -/
def ReadOnly (d : Device) (i : Nat) : Prop :=
  ∀ w ∈ d.block.writable, ¬ (w.start ≤ i ∧ i < w.stop)

/-- The driver cannot change a byte that is read-only. -/
theorem ReadOnly.byte_step {i : Nat} (readOnly : d.ReadOnly i) {action : Action}
    (noRevision : action.isRevision = false) :
    (d.step action).1.block.bytes[i]? = d.block.bytes[i]? := by
  by_contra changed
  cases rewrites_of_change changed with
  | driver inside opened starts ends =>
    obtain ⟨w, listed, first, last⟩ := opened
    exact readOnly w listed ⟨by omega, by omega⟩
  | host => cases noRevision

theorem reviseConfig_eq_error {offset : Nat} {bytes : List UInt8} {e : ConfigError}
    (refused : d.reviseConfig offset bytes = .error e) :
    d.block.bytes.length < offset + bytes.length := by
  unfold reviseConfig Config.State.reviseBlock at refused
  cases known : d.registers.config.block.revise offset bytes with
  | error e' => exact Block.revise_eq_error known
  | ok outcome =>
    rw [known] at refused
    cases refused

/-- What the host gives with an action for byte `i` of a block of `length` bytes. A revision that
does not fit gives nothing. -/
def given (length i : Nat) : Action → Option UInt8
  | .revise offset bytes =>
    if offset + bytes.length ≤ length ∧ offset ≤ i then bytes[i - offset]? else none
  | _ => none

/-- What the host gave last for a byte, if it gave `first` before these actions. -/
def lastGiven (length i : Nat) (first : Option UInt8) (actions : List Action) : Option UInt8 :=
  actions.foldl (fun last action => (given length i action).or last) first

theorem ReadOnly.given_step {i : Nat} (readOnly : d.ReadOnly i) (action : Action) :
    (d.step action).1.block.bytes[i]? =
      (given d.block.bytes.length i action).or d.block.bytes[i]? := by
  cases action with
  | revise offset bytes =>
    cases revised : d.reviseConfig offset bytes with
    | error e =>
      have long := reviseConfig_eq_error revised
      rw [given, if_neg (by omega), Option.none_or]
      simp only [step, revised]
    | ok d' =>
      have takes := (d.block_step _).1 offset bytes (.host revised)
      have inside := takes.inside
      rw [takes.getElem? i]
      by_cases covered : offset ≤ i ∧ i < offset + bytes.length
      · rw [if_pos covered, given, if_pos ⟨inside, covered.1⟩, List.getElem?_eq_getElem (by omega)]
        rfl
      · have nothing : given d.block.bytes.length i (.revise offset bytes) = none := by
          rw [given]
          split
          · exact List.getElem?_eq_none (by omega)
          · rfl
        rw [if_neg covered, nothing, Option.none_or]
  | _ => exact readOnly.byte_step rfl

theorem ReadOnly.lastGiven_run {i : Nat} (readOnly : d.ReadOnly i) (actions : List Action) :
    (d.run actions).1.block.bytes[i]? =
      lastGiven d.block.bytes.length i d.block.bytes[i]? actions := by
  induction actions generalizing d with
  | nil => rfl
  | cons action later ih =>
    have still : (d.step action).1.ReadOnly i := by
      rw [ReadOnly, writable_step]
      exact readOnly
    have rest := ih still
    rw [readOnly.given_step action, length_step] at rest
    exact rest

/-- The bytes of the configuration block come from its two writers. After any run the block is as
long as it was and the writable ranges are the same; a byte changes by a write of the driver inside
one writable range or by a revision of the host, and by nothing else; a write that is taken is read
back and leaves the other bytes alone; reads of any width see one array of bytes; and a read-only
byte is what the host gave last. -/
theorem config_bytes_from_writers (d : Device) (actions : List Action) :
    (d.run actions).1.block.bytes.length = d.block.bytes.length ∧
      (d.run actions).1.block.writable = d.block.writable ∧
      (∀ action i, ((d.run actions).1.step action).1.block.bytes[i]? ≠
        (d.run actions).1.block.bytes[i]? → (d.run actions).1.Rewrites i action) ∧
      (∀ value offset size answer, configSpace ≤ offset →
        ((d.run actions).1.access (.write value) offset size).2 = .ok answer →
        (d.run actions).1.ReadsBack value offset size) ∧
      (d.run actions).1.Coherent ∧
      ∀ i, d.ReadOnly i → (d.run actions).1.block.bytes[i]? =
        lastGiven d.block.bytes.length i d.block.bytes[i]? actions := by
  have length := run_keeps (P := fun e => e.block.bytes.length = d.block.bytes.length)
    (fun e action same => (e.length_step action).trans same) actions rfl
  have writable := run_keeps (P := fun e => e.block.writable = d.block.writable)
    (fun e action same => (e.writable_step action).trans same) actions rfl
  refine ⟨length, writable, fun action i => rewrites_of_change, ?_, coherent _, ?_⟩
  · intro value offset size answer inside taken
    exact readsBack inside taken
  · intro i readOnly
    exact readOnly.lastGiven_run actions

/-- The driver writes byte 0, which it may, and byte 3, which it may not; the device is reset, and
the host gives byte 2 twice. -/
def publicRewrites : List Action :=
  [.access (.write 9) 0x100 1, .access (.write 9) 0x103 1, .revise 2 [5], .access (.write 0) 0x70 4,
    .revise 1 [6, 7]]

theorem publicDevice_rewritten :
    (publicDevice.run publicRewrites).1.block.bytes[3]? = some 4 ∧
      (publicDevice.run publicRewrites).1.block.bytes[2]? = some 7 ∧
      (publicDevice.run publicRewrites).1.ReadsBack 0x201 0x100 2 := by
  obtain ⟨_, _, _, readsBack, _, given⟩ := config_bytes_from_writers publicDevice publicRewrites
  have readOnly (i : Nat) (above : 2 ≤ i) : publicDevice.ReadOnly i := by
    have writable : publicDevice.block.writable = [⟨0, 2⟩] := by decide +kernel
    intro w listed within
    rw [writable, List.mem_singleton] at listed
    cases listed
    dsimp only at within
    omega
  have taken : ((publicDevice.run publicRewrites).1.access (.write 0x201) 0x100 2).2 = .ok 0 := by
    decide +kernel
  refine ⟨(given 3 (readOnly 3 (by decide))).trans ?_, (given 2 (readOnly 2 (by decide))).trans ?_,
    readsBack _ _ _ _ (by decide) taken⟩ <;> decide +kernel

end Device

end VirtioMmio
