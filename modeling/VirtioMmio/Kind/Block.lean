import VirtioMmio.Device.Profile

/-!
Block devices. The device publishes the size and shape of a disk; requests are served by the
backend, so the codes of requests and replies are here for its use.
-/

namespace VirtioMmio.Kind

open Device (Profile)

structure Geometry where
  cylinders : UInt16
  heads : UInt8
  sectors : UInt8
  deriving DecidableEq, Repr

/-- A disk as the driver is to see it. -/
structure Block where
  -- Sectors of 512 bytes.
  capacity : UInt64
  -- The largest segment of a request, in bytes.
  sizeMax : UInt32
  -- The largest number of segments of a request.
  segMax : UInt32
  geometry : Option Geometry
  blockSize : Option UInt32
  readOnly : Bool
  -- Whether writes are cached at power-on; the driver may change it.
  writeback : Bool
  deriving DecidableEq, Repr

namespace Block

/-! ### Codes -/

inductive Request where
  | read
  | write
  | flush
  | identify
  deriving DecidableEq, Repr

def Request.code : Request → UInt32
  | .read => 0
  | .write => 1
  | .flush => 4
  | .identify => 8

inductive Reply where
  | done
  | failed
  | unsupported
  deriving DecidableEq, Repr

def Reply.code : Reply → UInt8
  | .done => 0
  | .failed => 1
  | .unsupported => 2

def sizeMaxFeature : UInt64 := 0x2
def segMaxFeature : UInt64 := 0x4
def geometryFeature : UInt64 := 0x10
def readOnlyFeature : UInt64 := 0x20
def blockSizeFeature : UInt64 := 0x40
def flushFeature : UInt64 := 0x200
def writebackFeature : UInt64 := 0x800

def requestQueue : UInt16 := 0
def sectorSize : UInt64 := 512
/-- Where the write-cache byte lies in the configuration block. -/
def writebackOffset : Nat := 32

/-! ### Configuration -/

/-- A disk of `bytes` bytes: segments of two megabytes, up to 128 per request. -/
def ofDisk (bytes : UInt64) : Block where
  capacity := bytes / sectorSize
  sizeMax := 0x200000
  segMax := 128
  geometry := none
  blockSize := some 512
  readOnly := false
  writeback := true

/-- The features of a disk: some for every disk, others for what the disk has. -/
def features (b : Block) : UInt64 :=
  sizeMaxFeature ||| segMaxFeature ||| flushFeature ||| writebackFeature |||
    (if b.geometry.isSome then geometryFeature else 0) |||
    (if b.blockSize.isSome then blockSizeFeature else 0) |||
    (if b.readOnly then readOnlyFeature else 0)

/-- The configuration block: 60 bytes, of which those for topology, discard and zeroing stay zero.
What the disk does not have reads zero. -/
def encode (b : Block) : List UInt8 :=
  let geometry := b.geometry.getD ⟨0, 0, 0⟩
  LittleEndian.encode 8 b.capacity.toNat ++
    LittleEndian.encode 4 b.sizeMax.toNat ++
    LittleEndian.encode 4 b.segMax.toNat ++
    LittleEndian.encode 2 geometry.cylinders.toNat ++
    [geometry.heads, geometry.sectors] ++
    LittleEndian.encode 4 (b.blockSize.getD 0).toNat ++
    List.replicate 8 0 ++
    [if b.writeback then 1 else 0, 0] ++
    LittleEndian.encode 2 1 ++
    List.replicate 24 0

/-- A disk has one queue, and the driver may switch its write cache. -/
def profile (b : Block) : Profile where
  id := .block
  features := b.features
  queues := 1
  config := b.encode
  writable := [⟨writebackOffset, writebackOffset + 1⟩]

end Block

end VirtioMmio.Kind
