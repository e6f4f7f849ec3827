import VirtioMmio.Proofs.Config.Handshake
import VirtioMmio.Proofs.Device.Provenance
import VirtioMmio.Proofs.Kind.Published

/-!
A driver takes stock of a device that was just built: it reads the number of the type, both halves
of the features, and the configuration space in pieces of any width that follow one another. Main
result: `survey_recovers_setup`. The answers give back every setting of the device, so that no two
set-ups of one type look the same.
-/

namespace VirtioMmio

open Config (Block)
open Queue (Half)
open Transport (Register configSpace windowSize)

/-! ### Building -/

namespace DeviceId

/-- The length of the configuration block of a device type. -/
def blockBytes : DeviceId → Nat
  | .net => 12
  | .block => 60
  | .console => 12
  | .socket => 8

theorem number_inj {a b : DeviceId} (same : a.number = b.number) : a = b := by
  cases a <;> cases b <;> first | rfl | exact absurd same (by decide)

end DeviceId

namespace Kind

theorem length_config (kind : Kind) :
    kind.profile.config.length = kind.profile.id.blockBytes := by
  cases kind with
  | block b => simp [profile, Block.profile, Block.encode, DeviceId.blockBytes]
  | net n => simp [profile, Net.profile, Net.encode, DeviceId.blockBytes]
  | socket s => simp [profile, Socket.profile, Socket.encode, DeviceId.blockBytes]
  | console c =>
    simp [profile, Console.profile, Console.encode, Console.encodeSize, DeviceId.blockBytes]

/-- Every type of device fits into its window and into the notes of the event pass. -/
theorem profile_fits (kind : Kind) :
    kind.profile.queues ≤ Device.maxQueues ∧
      kind.profile.maxQueueSize = Device.defaultQueueSize ∧
      kind.profile.config.length ≤ (windowSize - configSpace).toNat := by
  rw [length_config]
  cases kind <;> exact ⟨Nat.le_of_ble_eq_true rfl, rfl, Nat.le_of_ble_eq_true rfl⟩

end Kind

namespace Setup

theorem check_eq_ok {s : Setup} (valid : s.check = .ok ()) :
    Device.isQueueLimit s.maxQueueSize = true ∧ s.slot.base % windowSize = 0 := by
  unfold check at valid
  split at valid
  · cases valid
  next limit =>
    split at valid
    · cases valid
    next aligned => exact ⟨by simpa using limit, by simpa using aligned⟩

/-- The limit of the type is a good limit, so the smaller of two good ones is taken. -/
theorem isQueueLimit_queueLimit {s : Setup} (limit : Device.isQueueLimit s.maxQueueSize = true) :
    Device.isQueueLimit (Device.queueLimit s.options s.kind.profile) = true := by
  rw [Device.queueLimit, s.kind.profile_fits.2.1]
  change Device.isQueueLimit (if _ ≤ _ then _ else _) = true
  split
  · exact limit
  · decide

/-- What passes the check can be built. -/
theorem build_of_check {s : Setup} (valid : s.check = .ok ()) (ram : Memory.Ram) :
    ∃ d, s.build ram = .ok d := by
  obtain ⟨limit, aligned⟩ := check_eq_ok valid
  obtain ⟨queues, _, config⟩ := s.kind.profile_fits
  have whole := isQueueLimit_queueLimit limit
  rw [build, valid]
  dsimp only
  rw [Device.new, if_neg (by simpa [options] using aligned), if_neg (by omega),
    if_neg (by simpa using whole), if_neg (by omega)]
  exact ⟨_, rfl⟩

end Setup

/-! ### Taking stock -/

/-- Reads of the configuration space in pieces of given widths, one behind the other. -/
def pieceReads (start : Nat) : List UInt8 → List Action
  | [] => []
  | width :: widths =>
    .access .read (configSpace + .ofNat start) width :: pieceReads (start + width.toNat) widths

/-- The accesses by which a driver takes stock of a device. -/
def survey (widths : List UInt8) : List Action :=
  .access .read Register.deviceId.offset 4 ::
    .access (.write 0) Register.offeredFeaturesWindow.offset 4 ::
    .access .read Register.offeredFeatures.offset 4 ::
    .access (.write 1) Register.offeredFeaturesWindow.offset 4 ::
    .access .read Register.offeredFeatures.offset 4 :: pieceReads 0 widths

/-- The bytes that reads of given widths gave, put together. -/
def bytesOf? : List UInt8 → List Response → Option (List UInt8)
  | [], [] => some []
  | width :: widths, .access (.ok v) :: responses =>
    (bytesOf? widths responses).map (LittleEndian.encode width.toNat v.toNat ++ ·)
  | _, _ => none

/-- What the answers to a survey say. -/
def Published.ofResponses? (widths : List UInt8) : List Response → Option Published
  | .access (.ok id) :: .access (.ok _) :: .access (.ok low) :: .access (.ok _) ::
      .access (.ok high) :: pieces =>
    (bytesOf? widths pieces).map fun bytes => {
      id := id.toUInt32
      features := Halves.withHigh (Halves.withLow 0 low.toUInt32) high.toUInt32
      bytes }
  | _ => none

theorem Halves.withHigh_withLow (word : UInt64) :
    withHigh (withLow 0 (low word)) (high word) = word := by
  apply ext
  · rw [low_withHigh, low_withLow]
  · rw [high_withHigh]

/-- The number of bytes that reads of given widths give. -/
def totalWidth : List UInt8 → Nat
  | [] => 0
  | width :: widths => width.toNat + totalWidth widths

/-- The widths of reads that cover a block of the given length without gap or overlap. -/
structure Tiles (widths : List UInt8) (length : Nat) : Prop where
  known : ∀ width ∈ widths, width ∈ configWidths
  whole : totalWidth widths = length

namespace Device

variable {d : Device}

/-- A read of the configuration space changes nothing and gives the bytes there as a number. -/
theorem step_read_piece (settled : d.Settled) (short : d.block.bytes.length ≤ 256) {width : UInt8}
    (known : width ∈ configWidths) (start : Nat)
    (inside : start + width.toNat ≤ d.block.bytes.length) :
    d.step (.access .read (configSpace + .ofNat start) width) =
      (d, .access (.ok (.ofNat (LittleEndian.decode (d.block.slice start width.toNat))))) := by
  have base : configSpace.toNat = 256 := rfl
  have place : (configSpace + UInt64.ofNat start).toNat = 256 + start := by
    rw [UInt64.toNat_add, UInt64.toNat_ofNat', base]
    omega
  have above : configSpace ≤ configSpace + UInt64.ofNat start := by
    rw [UInt64.le_iff_toNat_le]
    omega
  have back : (configSpace + UInt64.ofNat start - configSpace).toNat = start := by
    rw [UInt64.toNat_sub_of_le _ _ above]
    omega
  have answered := access_read_of_block_read above known
    ((Block.read_eq_some_iff _ _).mpr ⟨back.symm ▸ inside, rfl⟩)
  rw [back, access_read settled] at answered
  dsimp only at answered
  simp only [step, access_read settled, Prod.map_apply, id_eq, answered]

theorem bytesOf?_pieceReads (settled : d.Settled) (short : d.block.bytes.length ≤ 256)
    {widths : List UInt8} (known : ∀ width ∈ widths, width ∈ configWidths) (start : Nat)
    (inside : start + totalWidth widths ≤ d.block.bytes.length) :
    bytesOf? widths (d.run (pieceReads start widths)).2 =
      some (d.block.slice start (totalWidth widths)) := by
  induction widths generalizing start with
  | nil => rfl
  | cons width widths ih =>
    rw [totalWidth] at inside ⊢
    have rest := ih (fun w member => known w (List.mem_cons_of_mem _ member))
      (start + width.toNat) (by omega)
    have width_known := known width List.mem_cons_self
    have first := step_read_piece settled short width_known start (by omega)
    have whole : d.block.read start width.toNat = some _ :=
      (Block.read_eq_some_iff _ _).mpr ⟨by omega, rfl⟩
    have number := toNat_of_block_read width_known whole
    -- The bytes of a number that was read are the bytes that it was read from.
    have bytes := LittleEndian.encode_decode (d.block.slice start width.toNat)
    rw [Block.length_slice (by omega)] at bytes
    simp only [pieceReads, run, first, bytesOf?, rest, number, bytes, Option.map_some]
    rw [Block.slice, Block.slice, Block.slice, List.take_add, List.drop_drop]

/-! ### Features -/

theorem step_read_register (settled : d.Settled) {r : Register} {v : UInt32}
    (readable : d.registers.readRegister d.machine r = some v) :
    d.step (.access .read r.offset 4) = (d, .access (.ok v.toUInt64)) := by
  simp only [step, access_readRegister settled, readable, Prod.map_apply, id_eq]

/-- The driver moves the window over the offered features. -/
def facing (d : Device) (window : UInt32) : Device :=
  d.withConfig (d.registers.config.selectOffered window)

theorem step_move_window (settled : d.Settled) (window : UInt64) :
    d.step (.access (.write window) Register.offeredFeaturesWindow.offset 4) =
      (d.facing window.toUInt32, .access (.ok 0)) := by
  have whole := access_register settled window .offeredFeaturesWindow
  rw [step, whole]
  rfl

theorem settled_facing (settled : d.Settled) (window : UInt32) : (d.facing window).Settled :=
  ⟨settled.quiet, settled.few⟩

theorem readRegister_facing (d : Device) (half : Half) :
    (d.facing half.window).registers.readRegister (d.facing half.window).machine .offeredFeatures =
      some (half.of d.registers.config.offered) := by
  cases half <;> rfl

/-- A survey finds the number of the type, the features offered, and all bytes of the block. -/
theorem ofResponses?_survey (settled : d.Settled) (short : d.block.bytes.length ≤ 256)
    {widths : List UInt8} (tiles : Tiles widths d.block.bytes.length) :
    Published.ofResponses? widths (d.run (survey widths)).2 =
      some ⟨d.registers.id.number, d.registers.config.offered, d.block.bytes⟩ := by
  have low := settled_facing settled Half.low.window
  have high := settled_facing low Half.high.window
  have id : d.registers.readRegister d.machine .deviceId = some d.registers.id.number := rfl
  have pieces := bytesOf?_pieceReads high short tiles.known 0 (by
    rw [Nat.zero_add]
    exact Nat.le_of_eq tiles.whole)
  have whole : ((d.facing Half.low.window).facing Half.high.window).block.slice 0
      (totalWidth widths) = d.block.bytes := by
    rw [Block.slice, tiles.whole]
    exact List.take_length
  have first : d.step (.access (.write 0) Register.offeredFeaturesWindow.offset 4) =
      (d.facing Half.low.window, .access (.ok 0)) := step_move_window settled 0
  have second : (d.facing Half.low.window).step
      (.access (.write 1) Register.offeredFeaturesWindow.offset 4) =
      ((d.facing Half.low.window).facing Half.high.window, .access (.ok 0)) :=
    step_move_window low 1
  simp only [survey, run, step_read_register settled id, first, second,
    step_read_register low (d.readRegister_facing .low),
    step_read_register high ((d.facing Half.low.window).readRegister_facing .high),
    Published.ofResponses?, pieces, whole, Option.map_some, UInt32.toUInt32_toUInt64]
  congr 2
  exact Halves.withHigh_withLow d.registers.config.offered

/-- The first answer to a survey tells the type, whatever the other ones are. -/
theorem head?_survey (settled : d.Settled) (widths : List UInt8) :
    (d.run (survey widths)).2.head? =
      some (.access (.ok d.registers.id.number.toUInt64)) := by
  have id : d.registers.readRegister d.machine .deviceId = some d.registers.id.number := rfl
  simp only [survey, run, step_read_register settled id, List.head?_cons]

end Device

namespace Setup

variable {s : Setup} {ram : Memory.Ram} {d : Device}

/-- What the registers of a device of this set-up hold at first is what it publishes. -/
theorem published_of_build (built : s.build ram = .ok d) :
    s.published = ⟨d.registers.id.number, d.registers.config.offered, d.block.bytes⟩ := by
  rw [Device.new_eq_ok (new_of_build built)]
  rfl

theorem ofResponses?_of_build (built : s.build ram = .ok d) {widths : List UInt8}
    (tiles : Tiles widths s.kind.profile.config.length) :
    Published.ofResponses? widths (d.run (survey widths)).2 = some s.published := by
  have settled := Device.settled_new (new_of_build built)
  have block : s.kind.profile.config = d.block.bytes :=
    congrArg Published.bytes (published_of_build built)
  have short : s.kind.profile.config.length ≤ 256 := s.kind.profile_fits.2.2
  rw [block] at tiles short
  rw [published_of_build built]
  exact Device.ofResponses?_survey settled short tiles

end Setup

/-- A driver that takes stock of a new device learns its set-up. Whatever passes the check can be
built. A survey with any pieces that cover the configuration space gives the features, which are
those of the type, the modern interface, and indirect tables exactly if they are wanted; and the
settings can be read off its answers, for each optional one also whether it is there. So devices of
different settings never look the same. -/
theorem survey_recovers_setup {s : Setup} (valid : s.check = .ok ()) (ram : Memory.Ram) :
    ∃ d, s.build ram = .ok d ∧
      (∀ widths, Tiles widths s.kind.profile.config.length →
        ∃ p, Published.ofResponses? widths (d.run (survey widths)).2 = some p ∧
          p.features = s.kind.profile.features ||| Device.version1Feature |||
            (if s.indirect then Device.indirectFeature else 0) ∧
          offers p.features Device.indirectFeature = s.indirect ∧
          Kind.ofPublished? p = some s.kind) ∧
      ∀ (s' : Setup) (ram' : Memory.Ram) (d' : Device), s'.build ram' = .ok d' →
        ∀ widths, Tiles widths s.kind.profile.config.length →
          (d'.run (survey widths)).2 = (d.run (survey widths)).2 →
            s'.kind = s.kind ∧ s'.indirect = s.indirect := by
  obtain ⟨d, built⟩ := Setup.build_of_check valid ram
  refine ⟨d, built, ?_, ?_⟩
  · intro widths tiles
    exact ⟨_, Setup.ofResponses?_of_build built tiles, rfl,
      Device.offers_indirect s.options s.kind, s.ofPublished?_published⟩
  · intro s' ram' d' built' widths tiles same
    -- The first answer is the type.
    have type : s'.kind.profile.id = s.kind.profile.id := by
      have first := Device.head?_survey (Device.settled_new (Setup.new_of_build built')) widths
      rw [same, Device.head?_survey (Device.settled_new (Setup.new_of_build built)) widths] at first
      simp only [Option.some.injEq, Response.access.injEq, Except.ok.injEq,
        UInt32.toUInt64_inj] at first
      have id := congrArg Published.id (Setup.published_of_build built)
      have id' := congrArg Published.id (Setup.published_of_build built')
      exact DeviceId.number_inj (id'.trans (first.symm.trans id.symm))
    -- Devices of one type have configuration spaces of one length, so the pieces cover both.
    have tiles' : Tiles widths s'.kind.profile.config.length := by
      rw [Kind.length_config, type, ← Kind.length_config]
      exact tiles
    have found := Setup.ofResponses?_of_build built tiles
    rw [← same, Setup.ofResponses?_of_build built' tiles', Option.some.injEq] at found
    constructor
    · have known := s'.ofPublished?_published
      rw [found, s.ofPublished?_published] at known
      exact (Option.some.inj known).symm
    · have wanted := Device.offers_indirect s'.options s'.kind
      rw [show Device.offeredFeatures s'.options s'.kind.profile =
        Device.offeredFeatures s.options s.kind.profile from congrArg Published.features found,
        Device.offers_indirect] at wanted
      exact wanted.symm

/-! A disk with a geometry of zeros and without a block size, read in pieces that respect none of
its fields. -/

def sampleDisk : Setup where
  slot := ⟨0xa000000, 0x200, 48⟩
  kind := .block {
    capacity := 0x123456789abcdef0
    sizeMax := 0
    segMax := 128
    geometry := some ⟨0, 0, 0⟩
    blockSize := none
    readOnly := true
    writeback := false }
  indirect := true

def samplePieces : List UInt8 := [1, 8, 2, 8, 4, 8, 8, 8, 8, 4, 1]

theorem sampleDisk_recovered :
    ∃ d, sampleDisk.build .empty = .ok d ∧
      ∃ p, Published.ofResponses? samplePieces (d.run (survey samplePieces)).2 = some p ∧
        p.features = 0x110000a36 ∧ Kind.ofPublished? p = some sampleDisk.kind := by
  have tiles : Tiles samplePieces sampleDisk.kind.profile.config.length :=
    ⟨by decide +kernel, by decide +kernel⟩
  obtain ⟨d, built, recovered, -⟩ := survey_recovers_setup (s := sampleDisk) (by decide) .empty
  obtain ⟨p, answered, features, -, kind⟩ := recovered samplePieces tiles
  exact ⟨d, built, p, answered, features.trans (by decide), kind⟩

end VirtioMmio
