import VirtioMmio.Memory.Pointer
import VirtioMmio.Proofs.Memory.Operations

/-!
Views taken out of views. A view is reached through any number of others, each of which grants the
next by the same check; what is read and written through the last one is then bytes of the first,
where the offsets add up to. Main results: `Window.perform_eq`, `Window.confined`,
`Window.descend_eq_ok_iff` and, for a view at any depth, `Window.views_confine`.
-/

namespace VirtioMmio.Memory

/-! ### One access -/

inductive Access where
  | fetch (offset : Nat) (shape : Shape)
  | put (offset : Nat) (value : Value)
  deriving DecidableEq, Repr

namespace Access

def offset : Access → Nat
  | fetch offset _ => offset
  | put offset _ => offset

def size : Access → Nat
  | fetch _ shape => shape.size
  | put _ value => value.shape.size

/-- The access made at a place in the store. -/
def made (s : Store) (place : Nat) : Access → Store × Response
  | fetch _ shape => (s, .value (shape.decode (s.read place shape.size)))
  | put _ value => (s.write place value.encode, .done)

end Access

/-- What an access comes to at its place, byte by byte. -/
inductive Accessed (s : Store) (place : Nat) : Access → Store × Response → Prop
  | fetched (offset : Nat) (shape : Shape) :
    Accessed s place (.fetch offset shape)
      (s, .value (shape.decode ((List.range shape.size).map fun i => s.byte (place + i))))
  | stored (offset : Nat) (value : Value) {t : Store}
    (here : t.read place value.shape.size = value.encode)
    (elsewhere : ∀ a, a < place ∨ place + value.shape.size ≤ a → t.byte a = s.byte a) :
    Accessed s place (.put offset value) (t, .done)

theorem Access.accessed_made (s : Store) (place : Nat) (access : Access) :
    Accessed s place access (access.made s place) := by
  cases access with
  | fetch offset shape => exact .fetched offset shape
  | put offset value =>
    refine .stored offset value ?_ fun a outside => ?_
    · have back := s.read_write place value.encode
      rwa [value.length_encode] at back
    · rw [← value.length_encode] at outside
      exact s.byte_write_of_not_mem place value.encode a outside

namespace Window

/-- The address is one of the window's. -/
def Holds (w : Window) (a : Nat) : Prop :=
  w.start ≤ a ∧ a < w.start + w.len

/-- The two stores cannot be told apart inside the window. -/
def Same (w : Window) (s t : Store) : Prop :=
  ∀ a, w.Holds a → s.byte a = t.byte a

section

-- By which number the address of a value is to be divisible.
variable (alignment : Shape → Nat)

/-- Plain bytes are copied and anything else goes through a pointer. -/
def fetch (w : Window) (s : Store) (offset : Nat) : Shape → Except MemoryError Value
  | .plain len => (w.read s offset len).map .plain
  | shape => (w.load s offset shape.size (alignment shape)).map shape.decode

def put (w : Window) (s : Store) (offset : Nat) : Value → Except MemoryError Store
  | .plain bytes => w.write s offset bytes
  | value => w.store s offset (alignment value.shape) value.encode

def perform (w : Window) (s : Store) : Access → Store × Response
  | .fetch offset shape =>
    match w.fetch alignment s offset shape with
    | .ok value => (s, .value value)
    | .error e => (s, .refused e)
  | .put offset value =>
    match w.put alignment s offset value with
    | .ok t => (t, .done)
    | .error e => (s, .refused e)

def run (w : Window) (s : Store) : List Access → Store × List Response
  | [] => (s, [])
  | access :: later =>
    let (s, response) := w.perform alignment s access
    let (s, responses) := w.run s later
    (s, response :: responses)

theorem fetch_eq (w : Window) (s : Store) (offset : Nat) (shape : Shape) :
    w.fetch alignment s offset shape = (w.read s offset shape.size).map shape.decode := by
  cases shape with
  | number width => exact congrArg (Except.map _) (w.load_eq_read s offset _ _)
  | descriptor => exact congrArg (Except.map _) (w.load_eq_read s offset _ _)
  | plain len => rfl

theorem put_eq (w : Window) (s : Store) (offset : Nat) (value : Value) :
    w.put alignment s offset value = w.write s offset value.encode := by
  cases value with
  | number width n => exact w.store_eq_write s offset _ _
  | descriptor d => exact w.store_eq_write s offset _ _
  | plain bytes => rfl

/-- Whether an access ends inside the window decides alone what becomes of it. -/
theorem perform_eq (w : Window) (s : Store) (access : Access) :
    w.perform alignment s access =
      if access.offset + access.size ≤ w.len then access.made s (w.start + access.offset)
      else (s, .refused (.outOfBounds access.offset access.size w.len)) := by
  cases access with
  | fetch offset shape =>
    simp only [perform, fetch_eq, read, check, Access.offset, Access.size]
    by_cases inside : offset + shape.size ≤ w.len
    · simp only [inside, ↓reduceIte, Access.made, Except.map]
    · simp only [inside, ↓reduceIte, Except.map]
  | put offset value =>
    simp only [perform, put_eq, write, check, Access.offset, Access.size, value.length_encode]
    by_cases inside : offset + value.shape.size ≤ w.len
    · simp only [inside, ↓reduceIte, Access.made]
    · simp only [inside, ↓reduceIte]

/-! ### Confinement -/

/-- One access leaves what is outside, and sees and leaves the same where the inside is the same. -/
theorem confined_perform (w : Window) (s : Store) (access : Access) :
    (∀ a, ¬ w.Holds a → (w.perform alignment s access).1.byte a = s.byte a) ∧
      ∀ t, w.Same s t → ∀ alignment',
        (w.perform alignment' t access).2 = (w.perform alignment s access).2 ∧
        w.Same (w.perform alignment s access).1 (w.perform alignment' t access).1 := by
  simp only [perform_eq]
  by_cases inside : access.offset + access.size ≤ w.len
  · simp only [if_pos inside]
    cases access with
    | fetch offset shape =>
      simp only [Access.offset, Access.size] at inside
      refine ⟨fun _ _ => rfl, fun t same _ => ⟨?_, same⟩⟩
      -- What is read lies inside, where the two stores are the same.
      have alike : t.read (w.start + offset) shape.size = s.read (w.start + offset) shape.size :=
        Store.read_congr fun i small => (same _ ⟨by omega, by omega⟩).symm
      simp only [Access.made, Access.offset, alike]
    | put offset value =>
      simp only [Access.offset, Access.size, ← value.length_encode] at inside
      constructor
      · intro a outside
        simp only [Holds] at outside
        exact s.byte_write_of_not_mem (w.start + offset) value.encode a (by omega)
      · intro t same _
        refine ⟨rfl, fun a held => ?_⟩
        simp only [Access.made, Store.byte_write, same a held]
  · simp only [if_neg inside, implies_true, true_and]
    exact fun t same _ => same

theorem confined (w : Window) (s : Store) (accesses : List Access) :
    (∀ a, ¬ w.Holds a → (w.run alignment s accesses).1.byte a = s.byte a) ∧
      ∀ t, w.Same s t → ∀ alignment',
        (w.run alignment' t accesses).2 = (w.run alignment s accesses).2 ∧
        w.Same (w.run alignment s accesses).1 (w.run alignment' t accesses).1 := by
  induction accesses generalizing s with
  | nil => exact ⟨fun _ _ => rfl, fun t same _ => ⟨rfl, same⟩⟩
  | cons access later ih =>
    obtain ⟨left, seen⟩ := confined_perform alignment w s access
    obtain ⟨leftLater, seenLater⟩ := ih (w.perform alignment s access).1
    refine ⟨fun a outside => (leftLater a outside).trans (left a outside), ?_⟩
    intro t same alignment'
    obtain ⟨answer, same⟩ := seen t same alignment'
    obtain ⟨answers, same⟩ := seenLater _ same alignment'
    exact ⟨congrArg₂ List.cons answer answers, same⟩

end

/-! ### Views of views -/

/-- Which bytes of a view the next one is to have. -/
structure Part where
  offset : UInt64
  len : UInt64
  deriving DecidableEq, Repr

/-- The view at the end of the parts, each of them taken out of the one before. -/
def descend (w : Window) : List Part → Except MemoryError Window
  | [] => .ok w
  | part :: parts =>
    match w.subWord part.offset part.len with
    | .ok view => view.descend parts
    | .error e => .error e

/-- Every part ends inside what it is taken out of, the first inside `len` bytes. -/
def Nested (len : Nat) : List Part → Prop
  | [] => True
  | part :: parts => part.offset.toNat + part.len.toNat ≤ len ∧ Nested part.len.toNat parts

/-- How far the view that the parts lead to starts from where they start. -/
def distance : List Part → Nat
  | [] => 0
  | part :: parts => part.offset.toNat + distance parts

/-- How long the view is that the parts lead to from `len` bytes. -/
def extent (len : Nat) : List Part → Nat
  | [] => len
  | part :: parts => extent part.len.toNat parts

theorem subWord_eq_ite {w : Window} (short : w.len < UInt64.size) (offset len : UInt64) :
    w.subWord offset len =
      if offset.toNat + len.toNat ≤ w.len then .ok ⟨w.start + offset.toNat, len.toNat⟩
      else .error (.outOfBounds offset.toNat len.toNat w.len) := by
  rw [subWord_eq short]
  simp only [sub, check]
  by_cases inside : offset.toNat + len.toNat ≤ w.len
  · simp only [inside, ↓reduceIte]
  · simp only [inside, ↓reduceIte]

theorem descend_eq_ok_iff {w : Window} (short : w.len < UInt64.size) (parts : List Part)
    (view : Window) :
    w.descend parts = .ok view ↔
      Nested w.len parts ∧ view = ⟨w.start + distance parts, extent w.len parts⟩ := by
  induction parts generalizing w with
  | nil =>
    simp only [descend, Nested, extent, true_and, Except.ok.injEq]
    exact eq_comm
  | cons part parts ih =>
    -- A length that is a word is short, so only the first window has to be short by assumption.
    have deeper := @ih ⟨w.start + part.offset.toNat, part.len.toNat⟩ part.len.toNat_lt
    rw [descend, subWord_eq_ite short, Nested, extent, distance, ← Nat.add_assoc]
    by_cases inside : part.offset.toNat + part.len.toNat ≤ w.len
    · simp only [inside, ↓reduceIte, deeper, true_and]
    · simp only [inside, ↓reduceIte, false_and, reduceCtorEq]

/-- What the parts lead to ends inside what they start from. -/
theorem Nested.stop_le {len : Nat} {parts : List Part} (nested : Nested len parts) :
    distance parts + extent len parts ≤ len := by
  induction parts generalizing len with
  | nil => exact Nat.le_of_eq (Nat.zero_add len)
  | cons part parts ih =>
    obtain ⟨inside, nested⟩ := nested
    have deeper := ih nested
    rw [distance, extent]
    omega

/-- Views at any depth. The parts lead to a view exactly if each ends inside the one before. The
view grants every part of itself that ends inside it and no other, also where the sum of the two
words wraps round, and every access that ends inside it and no other. An access is made in the first
window where the offsets add up to, and a refused one leaves the store. No run of accesses reads or
changes a byte outside the view, or depends on the alignment that types ask for. -/
theorem views_confine (root : Window) (short : root.len < UInt64.size) (parts : List Part) :
    ((∃ view, root.descend parts = .ok view) ↔ Nested root.len parts) ∧
    ∀ view, root.descend parts = .ok view →
      view.start = root.start + distance parts ∧
      (∀ a, view.Holds a → root.Holds a) ∧
      (∀ offset len, view.subWord offset len =
        if offset.toNat + len.toNat ≤ view.len then .ok ⟨view.start + offset.toNat, len.toNat⟩
        else .error (.outOfBounds offset.toNat len.toNat view.len)) ∧
      (∀ offset len, view.checkWord offset len = view.check offset.toNat len.toNat) ∧
      ∀ alignment s,
        (∀ access, access.offset + access.size ≤ view.len →
          Accessed s (root.start + distance parts + access.offset) access
            (view.perform alignment s access)) ∧
        (∀ access, view.len < access.offset + access.size →
          view.perform alignment s access =
            (s, .refused (.outOfBounds access.offset access.size view.len))) ∧
        ∀ accesses,
          (∀ a, ¬ view.Holds a → (view.run alignment s accesses).1.byte a = s.byte a) ∧
          ∀ t, view.Same s t → ∀ alignment',
            (view.run alignment' t accesses).2 = (view.run alignment s accesses).2 ∧
            view.Same (view.run alignment s accesses).1 (view.run alignment' t accesses).1 := by
  constructor
  · constructor
    · rintro ⟨view, reached⟩
      exact ((descend_eq_ok_iff short parts view).mp reached).1
    · intro nested
      exact ⟨_, (descend_eq_ok_iff short parts _).mpr ⟨nested, rfl⟩⟩
  · intro view reached
    obtain ⟨nested, rfl⟩ := (descend_eq_ok_iff short parts view).mp reached
    -- Every part ends inside the root, so sums of offsets stay below the word size.
    have inner := nested.stop_le
    have short' : extent root.len parts < UInt64.size := by omega
    refine ⟨rfl, fun a held => ?_, subWord_eq_ite short', checkWord_eq short', ?_⟩
    · simp only [Holds] at held ⊢
      omega
    · intro alignment s
      refine ⟨fun access inside => ?_, fun access beyond => ?_, confined alignment _ s⟩
      · rw [perform_eq, if_pos inside]
        exact access.accessed_made s _
      · rw [perform_eq, if_neg (Nat.not_le_of_lt beyond)]

/-- Two views deep, four bytes at an odd address are read where the offsets lead, and the same four
bytes further on are refused. A part whose end wraps round to the start is no part of the view. -/
theorem odd_word_confined :
    descend ⟨0x1000, 32⟩ [⟨3, 20⟩, ⟨5, 9⟩] = .ok ⟨0x1008, 9⟩ ∧
    subWord ⟨0x1008, 9⟩ 0xffffffffffffffff 2 =
      .error (.outOfBounds 0xffffffffffffffff 2 9) ∧
    ∀ s : Store,
      Accessed s 0x1009 (.fetch 1 (.number 4))
        (perform Shape.size ⟨0x1008, 9⟩ s (.fetch 1 (.number 4))) ∧
      perform Shape.size ⟨0x1008, 9⟩ s (.fetch 6 (.number 4)) =
        (s, .refused (.outOfBounds 6 4 9)) := by
  have reached : descend ⟨0x1000, 32⟩ [⟨3, 20⟩, ⟨5, 9⟩] = .ok ⟨0x1008, 9⟩ := rfl
  obtain ⟨_, views⟩ := views_confine ⟨0x1000, 32⟩ (by decide) [⟨3, 20⟩, ⟨5, 9⟩]
  obtain ⟨_, _, parts, _, accesses⟩ := views _ reached
  refine ⟨reached, parts 0xffffffffffffffff 2, fun s => ?_⟩
  obtain ⟨made, refused, _⟩ := accesses Shape.size s
  exact ⟨made (.fetch 1 (.number 4)) (by decide), refused (.fetch 6 (.number 4)) (by decide)⟩

end Window

end VirtioMmio.Memory
