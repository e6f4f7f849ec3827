import VirtioMmio.Transport.Register

/-!
Programming a queue. Its registers take 32 bits at a time, so every ring address is written in two
halves, each to a register of its own. Main result: `writeAll_programming`, by which the order of
the halves makes no difference.
-/

namespace VirtioMmio.Queue

open Transport (Register)

/-! ### Halves of a word -/

namespace Half

/-- This half of a word. -/
def of : Half → UInt64 → UInt32
  | .low => Halves.low
  | .high => Halves.high

/-- A write to one half of a word leaves the other one. -/
theorem of_withHalf (word : UInt64) (half other : Half) (v : UInt32) :
    other.of (Registers.withHalf word half v) = if half = other then v else other.of word := by
  cases half with
  | low =>
    cases other with
    | low => exact Halves.low_withLow word v
    | high => exact Halves.high_withLow word v
  | high =>
    cases other with
    | low => exact Halves.low_withHigh word v
    | high => exact Halves.high_withHigh word v

theorem eq_of_halves {word word' : UInt64} (same : ∀ half : Half, half.of word = half.of word') :
    word = word' :=
  Halves.ext (same .low) (same .high)

end Half

namespace Registers

/-! ### Writes -/

/-- What a write to one of the registers of a queue does to them, whichever register is meant. -/
def write (r : Registers) (v : UInt32) : Register → Registers
  | .queueSize => r.writeSize v
  | .queueAddress ring half => r.writeAddr ring half v
  | _ => r

def writeAll (r : Registers) (list : List (Register × UInt32)) : Registers :=
  list.foldl (fun r w => r.write w.2 w.1) r

theorem writeSize_down {r : Registers} (down : r.isUp = false) (size : UInt16) :
    r.writeSize size.toUInt32 = { r with size } := by
  have small : size.toUInt32.toNat < 0x10000 := by
    rw [UInt16.toNat_toUInt32]
    exact size.toNat_lt
  simp only [writeSize, down, Bool.false_eq_true, if_false, if_pos small, UInt16.toUInt16_toUInt32]

/-- A write to one half of an address leaves everything else. -/
theorem writeAddr_down {r : Registers} (down : r.isUp = false) (ring : RingAddress) (half : Half)
    (v : UInt32) :
    (r.writeAddr ring half v).size = r.size ∧ (r.writeAddr ring half v).ready = r.ready ∧
      (r.writeAddr ring half v).live = r.live ∧
      ∀ ring' half', half'.of ((r.writeAddr ring half v).addr ring') =
        if (ring, half) = (ring', half') then v else half'.of (r.addr ring') := by
  simp only [writeAddr, down, Bool.false_eq_true, if_false, Prod.mk.injEq]
  cases ring <;> refine ⟨rfl, rfl, rfl, fun ring' half' => ?_⟩ <;> cases ring' <;>
    simp [addr, Half.of_withHalf]

/-! ### All addresses -/

/-- Writes of parts of the addresses that `wanted` holds. -/
def addressWrites (wanted : Registers) (parts : List (RingAddress × Half)) :
    List (Register × UInt32) :=
  parts.map fun (ring, half) => (.queueAddress ring half, half.of (wanted.addr ring))

/-- Writes that program a queue: its size first, then its addresses. -/
def programming (wanted : Registers) (parts : List (RingAddress × Half)) :
    List (Register × UInt32) :=
  (.queueSize, wanted.size.toUInt32) :: wanted.addressWrites parts

/-- A part that was written holds what was wanted, and any other what it held before. -/
theorem writeAll_addressWrites (wanted : Registers) (parts : List (RingAddress × Half))
    {r : Registers} (down : r.isUp = false) :
    (r.writeAll (wanted.addressWrites parts)).size = r.size ∧
      (r.writeAll (wanted.addressWrites parts)).ready = r.ready ∧
      (r.writeAll (wanted.addressWrites parts)).live = r.live ∧
      ∀ ring half, half.of ((r.writeAll (wanted.addressWrites parts)).addr ring) =
        if (ring, half) ∈ parts then half.of (wanted.addr ring) else half.of (r.addr ring) := by
  induction parts generalizing r with
  | nil => exact ⟨rfl, rfl, rfl, fun _ _ => (if_neg List.not_mem_nil).symm⟩
  | cons part parts ih =>
    obtain ⟨ring, half⟩ := part
    obtain ⟨size, ready, live, address⟩ := writeAddr_down down ring half (half.of (wanted.addr ring))
    have down' : (r.writeAddr ring half (half.of (wanted.addr ring))).isUp = false := by
      rw [isUp, live]
      exact down
    obtain ⟨size', ready', live', address'⟩ := ih down'
    refine ⟨size'.trans size, ready'.trans ready, live'.trans live, fun ring' half' => ?_⟩
    refine (address' ring' half').trans ?_
    rw [address]
    -- Whether the part is written first or later, it holds the same in the end.
    by_cases here : (ring, half) = (ring', half')
    · cases here
      simp
    · have apart : (ring', half') ≠ (ring, half) := Ne.symm here
      simp only [if_neg here, List.mem_cons, apart, false_or]

/-- A blank queue holds what was wanted once every part of it was written, in any order. -/
theorem writeAll_programming {wanted : Registers} (ready : wanted.ready = false)
    (live : wanted.live = none) {parts : List (RingAddress × Half)}
    (all : ∀ ring half, (ring, half) ∈ parts) :
    blank.writeAll (wanted.programming parts) = wanted := by
  have first : blank.writeAll (wanted.programming parts) =
      ({ blank with size := wanted.size } : Registers).writeAll (wanted.addressWrites parts) :=
    congrArg (writeAll · _) (writeSize_down rfl wanted.size)
  obtain ⟨size, ready', live', address⟩ :=
    writeAll_addressWrites wanted parts (r := { blank with size := wanted.size }) rfl
  rw [← first] at size ready' live' address
  generalize blank.writeAll (wanted.programming parts) = r at size ready' live' address ⊢
  have same (ring : RingAddress) : r.addr ring = wanted.addr ring := by
    apply Half.eq_of_halves
    intro half
    rw [address, if_pos (all ring half)]
  obtain ⟨_, _, desc, driver, device, _⟩ := r
  obtain ⟨_, _, _, _, _, _⟩ := wanted
  cases size
  cases ready'.trans ready.symm
  cases live'.trans live.symm
  cases same .desc
  cases same .driver
  cases same .device
  rfl

end Registers

end VirtioMmio.Queue
