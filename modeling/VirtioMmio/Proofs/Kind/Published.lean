import Mathlib.Algebra.Group.Nat.Defs
import VirtioMmio.Device.Setup

/-!
What a device publishes about itself: the number of its type, a word of features, and a block of
bytes laid out as a packed structure. `Kind.ofPublished?` reads the settings of a device off it the
way a driver does: the value of an optional field counts only if the feature for it is offered. Main
result: `Setup.ofPublished?_published`.
-/

namespace VirtioMmio

/-! ### Packed structures -/

namespace LittleEndian

/-- Numbers in fields of given widths, one behind the other. -/
def encodeAll : List (Nat × Nat) → List UInt8
  | [] => []
  | (width, v) :: fields => encode width v ++ encodeAll fields

/-- The numbers in fields of given widths, from the front of `bytes`. -/
def decodeAll : List Nat → List UInt8 → List Nat
  | [], _ => []
  | width :: widths, bytes => decode (bytes.take width) :: decodeAll widths (bytes.drop width)

theorem decodeAll_encodeAll (fields : List (Nat × Nat)) (fit : ∀ f ∈ fields, f.2 < 256 ^ f.1) :
    decodeAll (fields.map Prod.fst) (encodeAll fields) = fields.map Prod.snd := by
  induction fields with
  | nil => rfl
  | cons f fields ih =>
    obtain ⟨width, v⟩ := f
    have small : v < 256 ^ width := fit (width, v) List.mem_cons_self
    have rest := ih fun f member => fit f (List.mem_cons_of_mem _ member)
    have front : (encode width v).length = width := length_encode width v
    simp only [List.map_cons, encodeAll, decodeAll, List.take_left' front, List.drop_left' front,
      rest, decode_encode, Nat.pow_eq, Nat.mod_eq_of_lt small]

/-! Numbers of fixed size fit into fields of that size. -/

theorem word_fits (v : UInt64) : v.toNat < 256 ^ 8 := v.toNat_lt

theorem cell_fits (v : UInt32) : v.toNat < 256 ^ 4 := v.toNat_lt

theorem half_fits (v : UInt16) : v.toNat < 256 ^ 2 := v.toNat_lt

theorem byte_fits (v : UInt8) : v.toNat < 256 ^ 1 := v.toNat_lt

theorem encode_one (b : UInt8) : encode 1 b.toNat = [b] := by
  simp [encode]

end LittleEndian

open LittleEndian (encodeAll decodeAll decodeAll_encodeAll word_fits cell_fits half_fits byte_fits
  encode_one)

/-- A feature is among some others. -/
def offers (features feature : UInt64) : Bool :=
  features &&& feature != 0

/-- What a driver can learn about a device by reading. -/
structure Published where
  id : UInt32
  features : UInt64
  bytes : List UInt8
  deriving DecidableEq, Repr

/-! ### Settings read back -/

namespace Kind

namespace Block

/-- The widths of the fields, from the capacity to the limits for discarding and zeroing. -/
def widths : List Nat := [8, 4, 4, 2, 1, 1, 4, 8, 1, 1, 2, 24]

def ofPublished? (features : UInt64) (bytes : List UInt8) : Option Block :=
  match decodeAll widths bytes with
  | [capacity, sizeMax, segMax, cylinders, heads, sectors, blockSize, _, writeback, _, _, _] =>
    some {
      capacity := .ofNat capacity
      sizeMax := .ofNat sizeMax
      segMax := .ofNat segMax
      geometry :=
        if offers features geometryFeature then
          some ⟨.ofNat cylinders, .ofNat heads, .ofNat sectors⟩
        else none
      blockSize := if offers features blockSizeFeature then some (.ofNat blockSize) else none
      readOnly := offers features readOnlyFeature
      writeback := writeback != 0 }
  | _ => none

def fields (b : Block) : List (Nat × Nat) :=
  let geometry := b.geometry.getD ⟨0, 0, 0⟩
  [(8, b.capacity.toNat), (4, b.sizeMax.toNat), (4, b.segMax.toNat), (2, geometry.cylinders.toNat),
    (1, geometry.heads.toNat), (1, geometry.sectors.toNat), (4, (b.blockSize.getD 0).toNat), (8, 0),
    (1, if b.writeback then 1 else 0), (1, 0), (2, 1), (24, 0)]

theorem encode_eq (b : Block) : b.encode = encodeAll b.fields := by
  have writeback : LittleEndian.encode 1 (if b.writeback then 1 else 0) =
      [if b.writeback then 1 else 0] := by
    cases b.writeback <;> rfl
  simp only [encode, fields, encodeAll, encode_one, writeback, List.append_assoc, List.append_nil]
  rfl

theorem fields_fit (b : Block) : ∀ f ∈ b.fields, f.2 < 256 ^ f.1 := by
  simp only [fields, List.forall_mem_cons, word_fits, cell_fits, half_fits, byte_fits, true_and]
  cases b.writeback <;> simp

/-- What a disk does not have reads zero, but the features tell. -/
theorem ofPublished?_encode (b : Block) {features : UInt64}
    (geometry : offers features geometryFeature = b.geometry.isSome)
    (blockSize : offers features blockSizeFeature = b.blockSize.isSome)
    (readOnly : offers features readOnlyFeature = b.readOnly) :
    ofPublished? features b.encode = some b := by
  have decoded := decodeAll_encodeAll b.fields b.fields_fit
  obtain ⟨capacity, sizeMax, segMax, g, s, ro, wb⟩ := b
  have known : decodeAll widths (encode ⟨capacity, sizeMax, segMax, g, s, ro, wb⟩) = _ :=
    (congrArg (decodeAll widths) (encode_eq _)).trans decoded
  simp only [ofPublished?, known, fields, List.map_cons, List.map_nil, geometry, blockSize,
    readOnly, UInt64.ofNat_toNat, UInt32.ofNat_toNat, UInt16.ofNat_toNat, UInt8.ofNat_toNat]
  cases g <;> cases s <;> cases wb <;> rfl

end Block

namespace Mac

def ofBytes? (bytes : List UInt8) : Option Mac :=
  if sized : bytes.length = 6 then some ⟨⟨bytes.toArray, sized⟩⟩ else none

theorem ofBytes?_toList (mac : Mac) : ofBytes? mac.bytes.toList = some mac := by
  obtain ⟨⟨array, sized⟩⟩ := mac
  simp [ofBytes?, sized]

end Mac

namespace Net

/-- The widths of the fields behind the address: link state, pairs of queues, frame size. -/
def widths : List Nat := [2, 2, 2]

def ofPublished? (features : UInt64) (bytes : List UInt8) : Option Net :=
  match Mac.ofBytes? (bytes.take 6), decodeAll widths (bytes.drop 6) with
  | some mac, [status, _, mtu] =>
    some {
      mac
      linkUp := UInt16.ofNat status &&& linkUpStatus != 0
      mtu := if offers features mtuFeature then some (.ofNat mtu) else none }
  | _, _ => none

def fields (n : Net) : List (Nat × Nat) :=
  [(2, (linkStatus n.linkUp).toNat), (2, 1), (2, (n.mtu.getD 0).toNat)]

theorem encode_eq (n : Net) : n.encode = n.mac.bytes.toList ++ encodeAll n.fields := by
  simp only [encode, fields, encodeAll, List.append_assoc, List.append_nil]

theorem fields_fit (n : Net) : ∀ f ∈ n.fields, f.2 < 256 ^ f.1 := by
  simp only [fields, List.forall_mem_cons, half_fits, true_and]
  simp

theorem ofPublished?_encode (n : Net) {features : UInt64}
    (mtu : offers features mtuFeature = n.mtu.isSome) :
    ofPublished? features n.encode = some n := by
  have decoded : decodeAll widths (encodeAll n.fields) = _ :=
    decodeAll_encodeAll n.fields n.fields_fit
  have front : n.mac.bytes.toList.length = 6 := n.mac.bytes.length_toList
  obtain ⟨mac, up, m⟩ := n
  rw [encode_eq, ofPublished?, List.take_left' front, List.drop_left' front, Mac.ofBytes?_toList,
    decoded]
  simp only [fields, List.map_cons, List.map_nil, mtu, UInt16.ofNat_toNat]
  cases m <;> cases up <;> rfl

end Net

namespace Console

/-- The widths of the fields: columns, rows, number of terminals, emergency character. -/
def widths : List Nat := [2, 2, 4, 4]

def ofPublished? (features : UInt64) (bytes : List UInt8) : Option Console :=
  match decodeAll widths bytes with
  | [cols, rows, _, _] =>
    some { size := if offers features sizeFeature then some ⟨.ofNat cols, .ofNat rows⟩ else none }
  | _ => none

def fields (c : Console) : List (Nat × Nat) :=
  let size := c.size.getD ⟨0, 0⟩
  [(2, size.cols.toNat), (2, size.rows.toNat), (4, 1), (4, 0)]

theorem encode_eq (c : Console) : c.encode = encodeAll c.fields := by
  simp only [encode, encodeSize, fields, encodeAll, List.append_assoc, List.append_nil]

theorem fields_fit (c : Console) : ∀ f ∈ c.fields, f.2 < 256 ^ f.1 := by
  simp only [fields, List.forall_mem_cons, half_fits, true_and]
  simp

theorem ofPublished?_encode (c : Console) {features : UInt64}
    (size : offers features sizeFeature = c.size.isSome) :
    ofPublished? features c.encode = some c := by
  have decoded : decodeAll widths (encodeAll c.fields) = _ :=
    decodeAll_encodeAll c.fields c.fields_fit
  obtain ⟨s⟩ := c
  rw [encode_eq, ofPublished?, decoded]
  simp only [fields, List.map_cons, List.map_nil, size, UInt16.ofNat_toNat]
  cases s <;> rfl

end Console

namespace Socket

/-- A socket device has a single field. -/
def widths : List Nat := [8]

def ofPublished? (bytes : List UInt8) : Option Socket :=
  match decodeAll widths bytes with
  | [cid] => some { cid := .ofNat cid }
  | _ => none

theorem ofPublished?_encode (s : Socket) : ofPublished? s.encode = some s := by
  have fit : ∀ f ∈ [(8, s.cid.toNat)], f.2 < 256 ^ f.1 := by
    rw [List.forall_mem_singleton]
    exact word_fits s.cid
  have decoded : decodeAll widths (encodeAll [(8, s.cid.toNat)]) = _ := decodeAll_encodeAll _ fit
  rw [encodeAll, encodeAll, List.append_nil] at decoded
  rw [encode, ofPublished?, decoded]
  simp only [List.map_cons, List.map_nil, UInt64.ofNat_toNat]

end Socket

/-- The settings that a device publishes, if its type is known. -/
def ofPublished? (p : Published) : Option Kind :=
  if p.id = DeviceId.block.number then (Block.ofPublished? p.features p.bytes).map .block
  else if p.id = DeviceId.net.number then (Net.ofPublished? p.features p.bytes).map .net
  else if p.id = DeviceId.socket.number then (Socket.ofPublished? p.bytes).map .socket
  else if p.id = DeviceId.console.number then (Console.ofPublished? p.features p.bytes).map .console
  else none

end Kind

/-! ### Features -/

namespace Device

/-- Indirect tables are offered exactly if they are wanted: no type of device has the feature as its
own. -/
theorem offers_indirect (options : Options) (kind : Kind) :
    offers (offeredFeatures options kind.profile) indirectFeature = options.indirect := by
  cases kind with
  | block b =>
    simp only [offeredFeatures, Kind.profile, Kind.Block.profile, Kind.Block.features]
    cases b.geometry.isSome <;> cases b.blockSize.isSome <;> cases b.readOnly <;>
      cases options.indirect <;> decide
  | net n =>
    simp only [offeredFeatures, Kind.profile, Kind.Net.profile, Kind.Net.features]
    cases n.mtu.isSome <;> cases options.indirect <;> decide
  | socket s =>
    simp only [offeredFeatures, Kind.profile, Kind.Socket.profile]
    cases options.indirect <;> decide
  | console c =>
    simp only [offeredFeatures, Kind.profile, Kind.Console.profile]
    cases c.size.isSome <;> cases options.indirect <;> decide

/-- What belongs to every type of device does not hide which features a disk has. -/
theorem offers_block (options : Options) (b : Kind.Block) :
    offers (offeredFeatures options b.profile) Kind.Block.geometryFeature = b.geometry.isSome ∧
      offers (offeredFeatures options b.profile) Kind.Block.blockSizeFeature = b.blockSize.isSome ∧
      offers (offeredFeatures options b.profile) Kind.Block.readOnlyFeature = b.readOnly := by
  simp only [offeredFeatures, Kind.Block.profile, Kind.Block.features]
  cases b.geometry.isSome <;> cases b.blockSize.isSome <;> cases b.readOnly <;>
    cases options.indirect <;> decide

theorem offers_mtu (options : Options) (n : Kind.Net) :
    offers (offeredFeatures options n.profile) Kind.Net.mtuFeature = n.mtu.isSome := by
  simp only [offeredFeatures, Kind.Net.profile, Kind.Net.features]
  cases n.mtu.isSome <;> cases options.indirect <;> decide

theorem offers_size (options : Options) (c : Kind.Console) :
    offers (offeredFeatures options c.profile) Kind.Console.sizeFeature = c.size.isSome := by
  simp only [offeredFeatures, Kind.Console.profile]
  cases c.size.isSome <;> cases options.indirect <;> decide

end Device

namespace Setup

/-- What a device of this set-up publishes. -/
def published (s : Setup) : Published where
  id := s.kind.profile.id.number
  features := Device.offeredFeatures s.options s.kind.profile
  bytes := s.kind.profile.config

/-- What a device publishes gives its settings back. -/
theorem ofPublished?_published (s : Setup) : Kind.ofPublished? s.published = some s.kind := by
  obtain ⟨slot, kind, limit, indirect⟩ := s
  cases kind with
  | block b =>
    obtain ⟨geometry, blockSize, readOnly⟩ := Device.offers_block _ b
    exact congrArg (Option.map Kind.block) (b.ofPublished?_encode geometry blockSize readOnly)
  | net n => exact congrArg (Option.map Kind.net) (n.ofPublished?_encode (Device.offers_mtu _ n))
  | socket c => exact congrArg (Option.map Kind.socket) c.ofPublished?_encode
  | console c =>
    exact congrArg (Option.map Kind.console) (c.ofPublished?_encode (Device.offers_size _ c))

end Setup

end VirtioMmio
