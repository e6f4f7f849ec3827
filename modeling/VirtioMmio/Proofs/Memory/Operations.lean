import VirtioMmio.Proofs.Memory.Regions
import VirtioMmio.Vring.Descriptor

/-!
Guest RAM operation by operation. Main result: `Ram.performed`, which says everything that an
addition, a change of rights, a read and a write can do.
-/

namespace VirtioMmio

namespace Vring.Descriptor

/-- Sixteen bytes are the encoding of the descriptor that they stand for. -/
theorem encode_decode {bytes : List UInt8} (sixteen : bytes.length = 16) :
    (decode bytes).encode = bytes := by
  have field (k n : Nat) (inside : k + n ≤ 16) :
      LittleEndian.decode ((bytes.drop k).take n) < Nat.pow 256 n ∧
        LittleEndian.encode n (LittleEndian.decode ((bytes.drop k).take n)) =
          (bytes.drop k).take n := by
    have whole : ((bytes.drop k).take n).length = n := by
      rw [List.length_take, List.length_drop]
      omega
    have small := LittleEndian.decode_lt ((bytes.drop k).take n)
    have back := LittleEndian.encode_decode ((bytes.drop k).take n)
    rw [whole] at small back
    exact ⟨small, back⟩
  obtain ⟨addrSmall, addr⟩ := field 0 8 (by decide)
  obtain ⟨lenSmall, len⟩ := field 8 4 (by decide)
  obtain ⟨flagsSmall, flags⟩ := field 12 2 (by decide)
  obtain ⟨nextSmall, next⟩ := field 14 2 (by decide)
  rw [List.drop_zero] at addrSmall addr
  rw [encode, decode, UInt64.toNat_ofNat', UInt32.toNat_ofNat', UInt16.toNat_ofNat',
    UInt16.toNat_ofNat', Nat.mod_eq_of_lt addrSmall, Nat.mod_eq_of_lt lenSmall,
    Nat.mod_eq_of_lt flagsSmall, Nat.mod_eq_of_lt nextSmall, addr, len, flags, next]
  -- The four fields lie one behind the other.
  have join (k n m : Nat) : (bytes.drop k).take n ++ (bytes.drop (k + n)).take m =
      (bytes.drop k).take (n + m) := by
    rw [List.take_add, List.drop_drop]
  have addrLen := join 0 8 4
  rw [List.drop_zero] at addrLen
  have first := join 0 12 2
  have second := join 0 14 2
  rw [List.drop_zero] at first second
  rw [addrLen, first, second]
  exact List.take_of_length_le (Nat.le_of_eq sixteen)

end Vring.Descriptor

namespace Memory

/-! ### What one access reads or writes -/

/-- How an access takes the bytes in its range: as a little-endian number, as a descriptor, or as
they are. -/
inductive Shape where
  | number (width : Nat)
  | descriptor
  | plain (len : Nat)
  deriving DecidableEq, Repr

inductive Value where
  | number (width value : Nat)
  | descriptor (d : Vring.Descriptor)
  | plain (bytes : List UInt8)
  deriving DecidableEq, Repr

def Shape.size : Shape → Nat
  | .number width => width
  | .descriptor => 16
  | .plain len => len

def Shape.decode : Shape → List UInt8 → Value
  | .number width, bytes => .number width (LittleEndian.decode bytes)
  | .descriptor, bytes => .descriptor (.decode bytes)
  | .plain _, bytes => .plain bytes

def Value.shape : Value → Shape
  | .number width _ => .number width
  | .descriptor _ => .descriptor
  | .plain bytes => .plain bytes.length

def Value.encode : Value → List UInt8
  | .number width value => LittleEndian.encode width value
  | .descriptor d => d.encode
  | .plain bytes => bytes

@[simp] theorem Value.length_encode (v : Value) : v.encode.length = v.shape.size := by
  cases v with
  | number width value => exact LittleEndian.length_encode width value
  | descriptor d => exact d.length_encode
  | plain bytes => rfl

/-- No byte is lost in a value. -/
theorem Shape.encode_decode {s : Shape} {bytes : List UInt8} (whole : bytes.length = s.size) :
    (s.decode bytes).encode = bytes := by
  cases s with
  | number width =>
    have back := LittleEndian.encode_decode bytes
    rw [whole] at back
    exact back
  | descriptor => exact Vring.Descriptor.encode_decode whole
  | plain len => rfl

namespace Ram

/-- The value of the given shape at `addr`. -/
def fetch (ram : Ram) (addr : UInt64) : Shape → Except MemoryError Value
  | .number width => (ram.readWord addr width).map (.number width)
  | .descriptor => (ram.read addr 16).map fun bytes => .descriptor (.decode bytes)
  | .plain len => (ram.read addr len).map .plain

def put (ram : Ram) (addr : UInt64) : Value → Except MemoryError Ram
  | .number width value => ram.writeWord addr width value
  | .descriptor d => ram.write addr d.encode
  | .plain bytes => ram.write addr bytes

theorem fetch_eq (ram : Ram) (addr : UInt64) (shape : Shape) :
    ram.fetch addr shape = (ram.read addr shape.size).map shape.decode := by
  cases shape with
  | number width =>
    rw [fetch, readWord, Shape.size]
    cases ram.read addr width <;> rfl
  | descriptor => rfl
  | plain len => rfl

theorem put_eq (ram : Ram) (addr : UInt64) (value : Value) :
    ram.put addr value = ram.write addr value.encode := by
  cases value <;> rfl

end Ram

/-! ### Operations -/

inductive Operation where
  | add (base : UInt64) (len : Nat) (rights : Rights)
  | protect (base : UInt64) (rights : Rights)
  | read (addr : UInt64) (shape : Shape)
  | write (addr : UInt64) (value : Value)
  deriving DecidableEq, Repr

/-- What is heard of an operation. -/
inductive Response where
  | done
  | value (v : Value)
  -- No region starts there.
  | missing
  | refused (e : MemoryError)
  deriving DecidableEq, Repr

abbrev Event := Operation × Response

/-- The region with the rights `rights` if it starts at `base`, and as it is if not. -/
def Region.protect (base : UInt64) (rights : Rights) (r : Region) : Region :=
  if r.base = base then { r with rights } else r

@[simp] theorem Region.place_protect (base : UInt64) (rights : Rights) (r : Region) :
    (r.protect base rights).place = r.place := by
  simp only [protect]
  split <;> rfl

namespace Ram

def perform (ram : Ram) : Operation → Ram × Response
  | .add base len rights =>
    match ram.add base len rights with
    | .ok ram => (ram, .done)
    | .error e => (ram, .refused e)
  | .protect base rights =>
    match ram.setRights base rights with
    | some ram => (ram, .done)
    | none => (ram, .missing)
  | .read addr shape =>
    match ram.fetch addr shape with
    | .ok v => (ram, .value v)
    | .error e => (ram, .refused e)
  | .write addr value =>
    match ram.put addr value with
    | .ok ram => (ram, .done)
    | .error e => (ram, .refused e)

/-- The memory after some operations, and all of them with what was heard of each. -/
def run (ram : Ram) : List Operation → Ram × List Event
  | [] => (ram, [])
  | operation :: later =>
    let (ram, response) := ram.perform operation
    let (ram, events) := ram.run later
    (ram, (operation, response) :: events)

/-- Everything that an operation can do, with what is heard of it. -/
inductive Performed (ram : Ram) : Operation → Ram × Response → Prop
  | added {base : UInt64} {len : Nat} {rights : Rights} {ram' : Ram}
    (grown : ram' = { ram with regions := ram.regions ++ [⟨base, len, rights⟩] })
    (sound : ram'.WellFormed) :
    Performed ram (.add base len rights) (ram', .done)
  | unadded {base : UInt64} {len : Nat} {rights : Rights} (e : MemoryError) :
    Performed ram (.add base len rights) (ram, .refused e)
  | changed {base : UInt64} {rights : Rights} (found : ∃ r ∈ ram.regions, r.base = base) :
    Performed ram (.protect base rights)
      ({ ram with regions := ram.regions.map (·.protect base rights) }, .done)
  | missing {base : UInt64} {rights : Rights} (missing : ¬ ∃ r ∈ ram.regions, r.base = base) :
    Performed ram (.protect base rights) (ram, .missing)
  | read {addr : UInt64} {shape : Shape}
    (granted : ram.check addr shape.size .reading = .ok ()) :
    Performed ram (.read addr shape)
      (ram, .value (shape.decode (ram.store.read addr.toNat shape.size)))
  | unread {addr : UInt64} {shape : Shape} {e : MemoryError}
    (refused : ram.check addr shape.size .reading = .error e) :
    Performed ram (.read addr shape) (ram, .refused e)
  | written {addr : UInt64} {value : Value}
    (granted : ram.check addr value.shape.size .writing = .ok ()) :
    Performed ram (.write addr value)
      ({ ram with store := ram.store.write addr.toNat value.encode }, .done)
  | unwritten {addr : UInt64} {value : Value} {e : MemoryError}
    (refused : ram.check addr value.shape.size .writing = .error e) :
    Performed ram (.write addr value) (ram, .refused e)

/-- Where at most one element qualifies, to change the first that does is to change all that do. -/
theorem modify_findIdx_eq_map {α : Type} {p : α → Bool} {change : α → α} {l : List α}
    (single : l.Pairwise fun a b => ¬ (p a = true ∧ p b = true)) :
    l.modify (l.findIdx p) change = l.map fun a => if p a then change a else a := by
  induction l with
  | nil => rfl
  | cons a l ih =>
    obtain ⟨others, rest⟩ := List.pairwise_cons.mp single
    rw [List.findIdx_cons, List.map_cons]
    cases first : p a with
    | true =>
      have same : (l.map fun b => if p b then change b else b) = l := by
        refine (List.map_congr_left fun b member => ?_).trans (List.map_id l)
        exact if_neg fun also => others b member ⟨first, also⟩
      rw [same]
      rfl
    | false => exact congrArg (a :: ·) (ih rest)

/-- One region at most starts at an address. -/
theorem WellFormed.bases {ram : Ram} (sound : ram.WellFormed) (base : UInt64) :
    ram.regions.Pairwise fun r s => ¬ ((r.base == base) = true ∧ (s.base == base) = true) := by
  refine sound.apart.imp_of_mem fun {r s} first second apart => ?_
  rintro ⟨start, start'⟩
  have same : r.base = s.base := (beq_iff_eq.mp start).trans (beq_iff_eq.mp start').symm
  have long := sound.nonempty r first
  have long' := sound.nonempty s second
  simp only [Region.Apart, Region.stop, same] at apart
  omega

theorem setRights_eq {ram : Ram} (sound : ram.WellFormed) (base : UInt64) (rights : Rights) :
    ram.setRights base rights =
      if ram.regions.any (·.base == base) then
        some { ram with regions := ram.regions.map (·.protect base rights) }
      else none := by
  simp only [setRights, modify_findIdx_eq_map (sound.bases base), Region.protect, beq_iff_eq]

/-- Whether a region can be added depends on the other regions only. -/
theorem add_eq (ram : Ram) (base : UInt64) (len : Nat) (rights : Rights) :
    ram.add base len rights =
      (Ram.add { regions := ram.regions } base len rights).map fun _ =>
        { ram with regions := ram.regions ++ [⟨base, len, rights⟩] } := by
  simp only [Ram.add]
  split
  · rfl
  split
  · rfl
  split
  · rfl
  split <;> rfl

theorem performed {ram : Ram} (sound : ram.WellFormed) (operation : Operation) :
    Performed ram operation (ram.perform operation) := by
  cases operation with
  | add base len rights =>
    simp only [perform]
    cases added : ram.add base len rights with
    | error e => exact .unadded e
    | ok ram' =>
      refine .added ?_ (sound.add added)
      -- Whether a region can be added depends on the regions only, not on the bytes.
      rw [add_eq] at added
      cases fits : Ram.add { regions := ram.regions } base len rights with
      | error e => rw [fits] at added; cases added
      | ok => rw [fits] at added; exact (Except.ok.inj added).symm
  | protect base rights =>
    have some_iff : ram.regions.any (·.base == base) = true ↔ ∃ r ∈ ram.regions, r.base = base := by
      simp
    simp only [perform, setRights_eq sound]
    by_cases found : ram.regions.any (·.base == base) = true
    · rw [if_pos found]
      exact .changed (some_iff.mp found)
    · rw [if_neg found]
      exact .missing (mt some_iff.mpr found)
  | read addr shape =>
    simp only [perform, fetch_eq, read_eq]
    cases checked : ram.check addr shape.size .reading with
    | ok => exact .read checked
    | error e => exact .unread checked
  | write addr value =>
    simp only [perform, put_eq, write_eq, value.length_encode]
    cases checked : ram.check addr value.shape.size .writing with
    | ok => exact .written checked
    | error e => exact .unwritten checked

theorem wellFormed_perform {ram : Ram} (sound : ram.WellFormed) (operation : Operation) :
    (ram.perform operation).1.WellFormed := by
  have performed := performed sound operation
  generalize ram.perform operation = after at performed ⊢
  cases performed with
  | added grown sound => exact sound
  | changed found => exact sound.of_places (by simp [Function.comp_def])
  | written granted => exact sound.of_regions rfl
  | unadded | missing | read | unread | unwritten => exact sound

theorem wellFormed_run {ram : Ram} (sound : ram.WellFormed) (operations : List Operation) :
    (ram.run operations).1.WellFormed := by
  induction operations generalizing ram with
  | nil => exact sound
  | cons operation later ih => exact ih (wellFormed_perform sound operation)

end Ram

end Memory

end VirtioMmio
