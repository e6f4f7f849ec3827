import VirtioMmio.Proofs.Queue.Chains
import VirtioMmio.Proofs.Queue.Scripts

/-!
Where the accesses of a queue lie. Addresses are computed in words of 64 bits, without a look at
overflow, from what a driver wrote. Once a queue was brought up they are plain sums all the same,
and every access stays inside its ring, or inside an indirect table that passed its check just
before. Main result: `accesses_stay_in_rings`, about any memory and mappings at each access.
-/

namespace VirtioMmio.Queue

open Dma (Space)
open Vring (Chain Descriptor Part)

/-! ### Aims -/

namespace Aim

/-- Where the bytes of an aim begin, as an unbounded number. -/
def place (q : Virtqueue) : Aim → Nat
  | .entry i => q.layout.desc.toNat + 16 * i.toNat
  | .nested table _ i => table.toNat + 16 * i.toNat
  | .driverFlags => q.layout.avail.toNat
  | .availIndex => q.layout.avail.toNat + 2
  | .availEntry => q.layout.avail.toNat + (4 + 2 * (q.chainsTaken.toNat % q.layout.size.toNat))
  | .deviceFlags => q.layout.used.toNat
  | .usedIndex => q.layout.used.toNat + 2
  | .usedEntry => q.layout.used.toNat + (4 + 8 * (q.chainsReturned.toNat % q.layout.size.toNat))

def width : Aim → Nat
  | .entry _ | .nested .. => 16
  | .usedEntry => 8
  | .driverFlags | .availIndex | .availEntry | .deviceFlags | .usedIndex => 2

/-- The ring or table that an aim belongs to: where it begins, and how many bytes it has. -/
def home (q : Virtqueue) : Aim → Nat × Nat
  | .entry _ => (q.layout.desc.toNat, Part.descriptor.bytes q.layout.size)
  | .nested table len _ => (table.toNat, len)
  | .driverFlags | .availIndex | .availEntry =>
    (q.layout.avail.toNat, Part.available.bytes q.layout.size)
  | .deviceFlags | .usedIndex | .usedEntry => (q.layout.used.toNat, Part.used.bytes q.layout.size)

def isEntry : Aim → Bool
  | .entry _ => true
  | _ => false

/-- An entry of the indirect table of `len` bytes at `table`. -/
def isNestedIn (table : UInt64) (len : Nat) : Aim → Bool
  | .nested table' len' _ => table' = table ∧ len' = len
  | _ => false

/-- The `len` bytes at `addr` are those of the aim, all inside its ring or table. -/
structure Hit (q : Virtqueue) (aim : Aim) (addr : UInt64) (len : Nat) : Prop where
  exact : addr.toNat = aim.place q
  whole : len = aim.width
  starts : (aim.home q).1 ≤ addr.toNat
  ends : addr.toNat + len ≤ (aim.home q).1 + (aim.home q).2
  below : (aim.home q).1 + (aim.home q).2 < 2 ^ 64

/-- If the aim is an entry of an indirect table, that table passed its check before. -/
def Allowed (past : List Event) : Aim → Prop
  | .nested table len _ => ∃ bytes, ⟨.checkTable table len, .ok bytes⟩ ∈ past
  | _ => True

theorem Allowed.append {past : List Event} {aim : Aim} (allowed : aim.Allowed past)
    (more : List Event) : aim.Allowed (past ++ more) := by
  cases aim with
  | nested table len i =>
    obtain ⟨bytes, member⟩ := allowed
    exact ⟨bytes, List.mem_append_left more member⟩
  | _ => trivial

end Aim

/-! ### Logs -/

/-- An access that stays where it belongs, after what was logged before. A check touches no
memory. -/
def Access.Stays (q : Virtqueue) (past : List Event) : Access → Prop
  | .checkBuffer .. | .checkTable .. => True
  | .read aim addr len => aim.Hit q addr len ∧ aim.Allowed past
  | .write aim addr bytes => aim.Hit q addr bytes.length ∧ aim.Allowed past

/-- Every access of a log stays where it belongs. -/
def Orderly (q : Virtqueue) : List Event → List Event → Prop
  | _, [] => True
  | past, e :: log => e.access.Stays q past ∧ Orderly q (past ++ [e]) log

theorem orderly_append {q : Virtqueue} {past front back : List Event}
    (first : Orderly q past front) (second : Orderly q (past ++ front) back) :
    Orderly q past (front ++ back) := by
  induction front generalizing past with
  | nil => rwa [List.append_nil] at second
  | cons e front ih =>
    rw [List.append_cons] at second
    exact ⟨first.1, ih first.2 second⟩

/-- The number of reads for aims of a kind. -/
def hops (kind : Aim → Bool) (log : List Event) : Nat :=
  log.countP fun e =>
    match e.access with
    | .read aim _ _ => kind aim
    | _ => false

@[simp] theorem hops_nil (kind : Aim → Bool) : hops kind [] = 0 := rfl

@[simp] theorem hops_append (kind : Aim → Bool) (front back : List Event) :
    hops kind (front ++ back) = hops kind front + hops kind back :=
  List.countP_append

@[simp] theorem hops_cons_read (kind : Aim → Bool) (aim : Aim) (addr : UInt64) (len : Nat)
    (answer : Answer) (log : List Event) :
    hops kind (⟨.read aim addr len, answer⟩ :: log) =
      hops kind log + if kind aim then 1 else 0 :=
  List.countP_cons

@[simp] theorem hops_cons_checkBuffer (kind : Aim → Bool) (addr : UInt64) (len : Nat)
    (access : Memory.Rights) (answer : Answer) (log : List Event) :
    hops kind (⟨.checkBuffer addr len access, answer⟩ :: log) = hops kind log :=
  rfl

@[simp] theorem hops_cons_checkTable (kind : Aim → Bool) (addr : UInt64) (len : Nat)
    (answer : Answer) (log : List Event) :
    hops kind (⟨.checkTable addr len, answer⟩ :: log) = hops kind log :=
  rfl

/-! ### Walks -/

/-- What a walk through a table may log with a budget, from an entry on. `entered` tells what may be
logged for an indirect descriptor. -/
inductive WalkLog (aim : UInt16 → Aim) (table : UInt64) (count : UInt16)
    (entered : List Event → Prop) : Nat → UInt16 → List Event → Prop
  | stop (budget : Nat) (index : UInt16) : WalkLog aim table count entered budget index []
  | enter {budget : Nat} {index : UInt16} {log : List Event} (inside : index < count)
      (answer : Answer) (onward : entered log) :
      WalkLog aim table count entered (budget + 1) index
        (⟨.read (aim index) (entryAddr table index) 16, answer⟩ :: log)
  | read {budget : Nat} {index : UInt16} (inside : index < count) (answer : Answer) :
      WalkLog aim table count entered (budget + 1) index
        [⟨.read (aim index) (entryAddr table index) 16, answer⟩]
  | step {budget : Nat} {index next : UInt16} {log : List Event} (inside : index < count)
      (answer : Answer) (addr : UInt64) (len : Nat) (access : Memory.Rights) (passed : Answer)
      (onward : WalkLog aim table count entered budget next log) :
      WalkLog aim table count entered (budget + 1) index
        (⟨.read (aim index) (entryAddr table index) 16, answer⟩ ::
          ⟨.checkBuffer addr len access, passed⟩ :: log)

section Walk

variable {q : Virtqueue} {aim : UInt16 → Aim} {table : UInt64} {count : UInt16}
  {entered : List Event → Prop} {budget : Nat} {index : UInt16} {past log : List Event}

theorem runs_bufferScript {seen : Bool} {d : Descriptor} {result : Except QueueError Bool}
    (runs : (bufferScript seen d).Runs log result) :
    log = [] ∧ result = .error .orderViolation ∨
      ∃ access passed, log = [⟨.checkBuffer d.addr d.len.toNat access, passed⟩] := by
  rw [bufferScript] at runs
  split at runs
  · cases runs
    exact .inl ⟨rfl, rfl⟩
  · obtain ⟨s, rfl, _⟩ := Script.runs_once_iff.mp runs
    exact .inr ⟨_, _, rfl⟩

theorem walkLog_followScript
    {enter : Descriptor → Bool → List Descriptor → Script (Except QueueError (List Descriptor))}
    (inner : ∀ d seen taken log result, (enter d seen taken).Runs log result → entered log)
    {seen : Bool} {taken : List Descriptor} {result : Except QueueError (List Descriptor)}
    (runs : (followScript aim table count enter budget index seen taken).Runs log result) :
    WalkLog aim table count entered budget index log := by
  -- A run stops at any of its accesses or goes on; each way has its constructor.
  induction budget generalizing index seen taken log with
  | zero =>
    rw [followScript] at runs
    split at runs <;> cases runs <;> exact .stop ..
  | succ budget ih =>
    rw [followScript] at runs
    split at runs
    · cases runs
      exact .stop ..
    next outside =>
    have inside := UInt16.not_le.mp outside
    rcases Script.runs_andThen runs with ⟨e, failed, rfl⟩ | ⟨d, front, rest, rfl, read, later⟩
    · obtain ⟨s, rfl, _⟩ := Script.runs_once_iff.mp failed
      exact .read inside _
    · obtain ⟨s, rfl, _⟩ := Script.runs_once_iff.mp read
      split at later
      · exact .enter inside _ (inner _ _ _ _ _ later)
      · rcases Script.runs_andThen later with
          ⟨e, failed, rfl⟩ | ⟨seen, front, back, rfl, done, onward⟩
        · rcases runs_bufferScript failed with ⟨rfl, _⟩ | ⟨access, passed, rfl⟩
          · exact .read inside _
          · exact .step inside _ _ _ _ _ (.stop budget index)
        · rcases runs_bufferScript done with ⟨_, no⟩ | ⟨access, passed, rfl⟩
          · cases no
          · split at onward
            · exact .step inside _ _ _ _ _ (ih onward)
            · cases onward
              exact .step inside _ _ _ _ _ (.stop budget index)

theorem WalkLog.orderly (walk : WalkLog aim table count entered budget index log)
    (hit : ∀ i, i < count → (aim i).Hit q (entryAddr table i) 16)
    (allowed : ∀ i, (aim i).Allowed past)
    (inner : ∀ past log, entered log → Orderly q past log) : Orderly q past log := by
  induction walk generalizing past with
  | stop => trivial
  | enter inside _ onward => exact ⟨⟨hit _ inside, allowed _⟩, inner _ _ onward⟩
  | read inside => exact ⟨⟨hit _ inside, allowed _⟩, trivial⟩
  | step inside _ _ _ _ _ _ ih =>
    exact ⟨⟨hit _ inside, allowed _⟩, trivial, ih fun i => ((allowed i).append _).append _⟩

/-- A walk reads one entry for each step of its budget, beside what it reads in another table. -/
theorem WalkLog.hops_le (walk : WalkLog aim table count entered budget index log)
    {kind : Aim → Bool} {cost extra : Nat} (each : ∀ i, (if kind (aim i) then 1 else 0) ≤ cost)
    (inner : ∀ log, entered log → hops kind log ≤ extra) :
    hops kind log ≤ budget * cost + extra := by
  induction walk with
  | stop => exact Nat.zero_le _
  | @enter budget index log inside answer onward =>
    have first := each index
    have later := inner log onward
    rw [hops_cons_read, Nat.succ_mul]
    omega
  | @read budget index inside answer =>
    have first := each index
    rw [hops_cons_read, hops_nil, Nat.succ_mul]
    omega
  | @step budget index next log inside answer addr len access passed onward ih =>
    have first := each index
    rw [hops_cons_read, hops_cons_checkBuffer, Nat.succ_mul]
    omega

end Walk

/-! ### Tables -/

section Tables

variable {q : Virtqueue} {d : Descriptor} {seen : Bool} {taken : List Descriptor}
  {past log : List Event} {result : Except QueueError (List Descriptor)}

/-- What the visit of an indirect table may log: nothing, or its check, and once that has passed a
walk that enters no further table. -/
theorem runs_indirectScript (runs : (indirectScript d seen taken).Runs log result) :
    log = [] ∨ ∃ (n : Nat) (answer : Answer) (rest : List Event), n ≤ maxIndirect ∧
      d.len.toNat = 16 * n ∧ log = ⟨.checkTable d.addr d.len.toNat, answer⟩ :: rest ∧
      (rest = [] ∨ d.addr.toNat + d.len.toNat < 2 ^ 64 ∧ (∃ bytes, answer = .ok bytes) ∧
        WalkLog (.nested d.addr d.len.toNat) d.addr (.ofNat n) (· = []) n 0 rest) := by
  unfold indirectScript at runs
  dsimp only at runs
  split at runs
  · cases runs
    exact .inl rfl
  next shape =>
  simp only [not_or, Nat.not_lt] at shape
  -- From here on the table is known to hold `n` whole descriptors.
  obtain ⟨n, size⟩ : ∃ n, d.len.toNat = 16 * n := ⟨d.len.toNat / 16, by omega⟩
  have most : n ≤ maxIndirect := by omega
  refine .inr ⟨n, ?_⟩
  rcases Script.runs_andThen runs with ⟨e, failed, rfl⟩ | ⟨_, front, back, rfl, passed, onward⟩
  · obtain ⟨s, rfl, _⟩ := Script.runs_once_iff.mp failed
    exact ⟨_, [], most, size, rfl, .inl rfl⟩
  · obtain ⟨s, rfl, granted⟩ := Script.runs_once_iff.mp passed
    refine ⟨_, back, most, size, rfl, .inr ?_⟩
    simp only [Access.perform] at granted ⊢
    cases checked : s.check d.addr d.len.toNat .reading with
    | error e =>
      rw [checked] at granted
      cases granted
    | ok =>
      obtain ⟨a, located⟩ := (s.check_eq_ok_iff ..).mp checked
      refine ⟨(Space.locate_bounds located).1, ⟨_, rfl⟩, ?_⟩
      have walk : WalkLog (.nested d.addr d.len.toNat) d.addr (.ofNat (d.len.toNat / 16)) (· = [])
          (UInt16.ofNat (d.len.toNat / 16)).toNat 0 back := by
        apply walkLog_followScript _ onward
        rintro d seen taken log result ⟨⟩
        rfl
      have count : d.len.toNat / 16 = n := by omega
      rwa [count, UInt16.toNat_ofNat',
        Nat.mod_eq_of_lt (by simp only [maxIndirect] at most; omega)] at walk

/-- Entries of a table that does not go beyond the last address lie in the table. -/
theorem hit_nested {table : UInt64} {n : Nat} (most : n ≤ maxIndirect)
    (below : table.toNat + 16 * n < 2 ^ 64) {i : UInt16} (inside : i < .ofNat n) :
    (Aim.nested table (16 * n) i).Hit q (entryAddr table i) 16 := by
  rw [UInt16.lt_iff_toNat_lt, UInt16.toNat_ofNat',
    Nat.mod_eq_of_lt (by simp only [maxIndirect] at most; omega)] at inside
  have exact : (entryAddr table i).toNat = table.toNat + 16 * i.toNat :=
    toNat_entryAddr (by omega)
  refine ⟨exact, rfl, ?_, ?_, below⟩ <;> simp only [Aim.home] <;> omega

/-- An indirect table is checked before it is read, and then read within its bounds. -/
theorem orderly_indirectScript (runs : (indirectScript d seen taken).Runs log result) :
    Orderly q past log := by
  rcases runs_indirectScript runs with rfl | ⟨n, answer, rest, most, size, rfl, later⟩
  · trivial
  · refine ⟨trivial, ?_⟩
    rcases later with rfl | ⟨below, ⟨bytes, rfl⟩, walk⟩
    · trivial
    · rw [size] at below walk ⊢
      apply walk.orderly (fun i inside => hit_nested most below inside)
      · exact fun i => ⟨bytes, List.mem_append_right past (List.mem_singleton_self _)⟩
      · rintro past log rfl
        trivial

theorem hops_indirectScript {kind : Aim → Bool} {cost bound : Nat}
    (each : ∀ i, (if kind (.nested d.addr d.len.toNat i) then 1 else 0) ≤ cost)
    (bounded : ∀ n, n ≤ maxIndirect → d.len.toNat = 16 * n → n * cost ≤ bound)
    (runs : (indirectScript d seen taken).Runs log result) : hops kind log ≤ bound := by
  rcases runs_indirectScript runs with rfl | ⟨n, answer, rest, most, size, rfl, later⟩
  · exact Nat.zero_le _
  · rw [hops_cons_checkTable]
    rcases later with rfl | ⟨_, _, walk⟩
    · exact Nat.zero_le _
    · have none (log : List Event) (ended : log = []) : hops kind log ≤ 0 := by
        rw [ended]
        exact Nat.le_refl 0
      exact Nat.le_trans (walk.hops_le each none) (bounded n most size)

/-- An indirect descriptor of the queue's own table leads to a table or nowhere. -/
theorem runs_enterScript (runs : (q.enterScript d seen taken).Runs log result) :
    log = [] ∨ (indirectScript d seen taken).Runs log result := by
  rw [Virtqueue.enterScript] at runs
  split at runs
  · cases runs
    exact .inl rfl
  · exact .inr runs

end Tables

/-! ### Rings -/

section Rings

variable {q : Virtqueue} {past log : List Event}

theorem hit_ring (placed : q.layout.Placed) {aim : Aim} {p : Part} {addr : UInt64} {k : Nat}
    (home : aim.home q = ((q.layout.addr p).toNat, p.bytes q.layout.size))
    (place : aim.place q = (q.layout.addr p).toNat + k)
    (exact : addr.toNat = (q.layout.addr p).toNat + k)
    (inside : k + aim.width ≤ p.bytes q.layout.size) : aim.Hit q addr aim.width := by
  have ends := placed.ends p
  refine ⟨exact.trans place.symm, rfl, ?_, ?_, ?_⟩ <;> rw [home] <;> dsimp only <;> omega

theorem hit_entry (placed : q.layout.Placed) (i : UInt16) (inside : i < q.layout.size) :
    (Aim.entry i).Hit q (entryAddr q.layout.desc i) 16 := by
  rw [UInt16.lt_iff_toNat_lt] at inside
  have ends : q.layout.desc.toNat + 16 * q.layout.size.toNat < 2 ^ 64 := placed.ends .descriptor
  exact hit_ring (p := .descriptor) placed rfl rfl (toNat_entryAddr (by omega))
    (by simp only [Aim.width, Part.bytes]; omega)

/-- What the walk of the queue's own table may log. -/
theorem walkLog_chainScript {head : UInt16} {result : Except QueueError Chain}
    (runs : (q.chainScript head).Runs log result) :
    WalkLog .entry q.layout.desc q.layout.size
      (fun log => log = [] ∨ ∃ d seen taken result, (indirectScript d seen taken).Runs log result)
      q.layout.size.toNat head log := by
  have walked {log : List Event} {result : Except QueueError (List Descriptor)}
      (runs : (followScript .entry q.layout.desc q.layout.size q.enterScript q.layout.size.toNat
        head false []).Runs log result) :
      WalkLog .entry q.layout.desc q.layout.size
        (fun log => log = [] ∨ ∃ d seen taken result, (indirectScript d seen taken).Runs log result)
        q.layout.size.toNat head log := by
    apply walkLog_followScript _ runs
    intro d seen taken log result runs
    exact (runs_enterScript runs).imp_right fun inner => ⟨d, seen, taken, result, inner⟩
  rw [Virtqueue.chainScript] at runs
  rcases Script.runs_andThen runs with ⟨e, failed, rfl⟩ | ⟨taken, front, back, rfl, worked, last⟩
  · exact walked failed
  · cases last
    rw [List.append_nil]
    exact walked worked

theorem orderly_chainScript (placed : q.layout.Placed) {head : UInt16}
    {result : Except QueueError Chain} (runs : (q.chainScript head).Runs log result) :
    Orderly q past log := by
  apply (walkLog_chainScript runs).orderly (hit_entry placed) (fun _ => trivial)
  rintro past log (rfl | ⟨d, seen, taken, result, runs⟩)
  · trivial
  · exact orderly_indirectScript runs

/-- Before its walk a queue reads two words of the available ring at most. -/
theorem runs_headScript {result : Except QueueError (Option UInt16)}
    (runs : q.headScript.Runs log result) :
    ∃ first rest, log = ⟨.read .availIndex q.availIndexAddr 2, first⟩ :: rest ∧
      (rest = [] ∨ ∃ second, rest = [⟨.read .availEntry q.availEntryAddr 2, second⟩]) := by
  rw [Virtqueue.headScript] at runs
  rcases Script.runs_andThen runs with ⟨e, failed, rfl⟩ | ⟨published, front, back, rfl, read, onward⟩
  · obtain ⟨s, rfl, _⟩ := Script.runs_once_iff.mp failed
    exact ⟨_, [], rfl, .inl rfl⟩
  · obtain ⟨s, rfl, _⟩ := Script.runs_once_iff.mp read
    refine ⟨_, back, rfl, ?_⟩
    dsimp only at onward
    split at onward
    · cases onward
      exact .inl rfl
    · split at onward
      · cases onward
        exact .inl rfl
      · rcases Script.runs_andThen onward with ⟨e, failed, rfl⟩ | ⟨head, one, none, rfl, read, last⟩
        · obtain ⟨s, rfl, _⟩ := Script.runs_once_iff.mp failed
          exact .inr ⟨_, rfl⟩
        · obtain ⟨s, rfl, _⟩ := Script.runs_once_iff.mp read
          cases last
          exact .inr ⟨_, rfl⟩

/-- Taking a chain logs what finding its head does, and maybe a walk. -/
theorem runs_takeScript {result : Except QueueError (Option Chain)}
    (runs : q.takeScript.Runs log result) :
    ∃ front back found, log = front ++ back ∧ q.headScript.Runs front found ∧
      (back = [] ∨ ∃ head walked, (q.chainScript head).Runs back walked) := by
  rw [Virtqueue.takeScript] at runs
  rcases Script.runs_andThen runs with ⟨e, failed, rfl⟩ | ⟨next, front, back, rfl, found, onward⟩
  · exact ⟨log, [], _, (List.append_nil log).symm, failed, .inl rfl⟩
  · refine ⟨front, back, _, rfl, found, ?_⟩
    cases next with
    | none =>
      cases onward
      exact .inl rfl
    | some head =>
      rcases Script.runs_andThen onward with ⟨e, failed, rfl⟩ | ⟨chain, way, none, rfl, worked, last⟩
      · exact .inr ⟨head, _, failed⟩
      · cases last
        rw [List.append_nil]
        exact .inr ⟨head, _, worked⟩

theorem orderly_takeScript (placed : q.layout.Placed) {result : Except QueueError (Option Chain)}
    (runs : q.takeScript.Runs log result) : Orderly q past log := by
  have less : q.chainsTaken.toNat % q.layout.size.toNat < q.layout.size.toNat :=
    Nat.mod_lt _ placed.size_pos
  have index : Aim.availIndex.Hit q q.availIndexAddr 2 :=
    hit_ring (p := .available) placed rfl rfl (toNat_availIndexAddr placed)
      (by simp only [Aim.width, Part.bytes]; omega)
  have entry : Aim.availEntry.Hit q q.availEntryAddr 2 :=
    hit_ring (p := .available) placed rfl rfl (toNat_availEntryAddr placed)
      (by simp only [Aim.width, Part.bytes]; omega)
  obtain ⟨front, back, found, rfl, first, walked⟩ := runs_takeScript runs
  apply orderly_append
  · obtain ⟨one, rest, rfl, rfl | ⟨two, rfl⟩⟩ := runs_headScript first
    · exact ⟨⟨index, trivial⟩, trivial⟩
    · exact ⟨⟨index, trivial⟩, ⟨entry, trivial⟩, trivial⟩
  · rcases walked with rfl | ⟨head, result, runs⟩
    · trivial
    · exact orderly_chainScript placed runs

/-- Taking a chain reads one entry for each entry of the own table and of an indirect one, at
most. -/
theorem hops_takeScript {kind : Aim → Bool} {cost bound : Nat} (words : kind .availIndex = false)
    (slots : kind .availEntry = false) (each : ∀ i, (if kind (.entry i) then 1 else 0) ≤ cost)
    (inner : ∀ d seen taken log result, (indirectScript d seen taken).Runs log result →
      hops kind log ≤ bound)
    {result : Except QueueError (Option Chain)} (runs : q.takeScript.Runs log result) :
    hops kind log ≤ q.layout.size.toNat * cost + bound := by
  obtain ⟨front, back, found, rfl, first, walked⟩ := runs_takeScript runs
  have before : hops kind front = 0 := by
    obtain ⟨one, rest, rfl, rfl | ⟨two, rfl⟩⟩ := runs_headScript first <;> simp [words, slots]
  rw [hops_append, before, Nat.zero_add]
  rcases walked with rfl | ⟨head, result, runs⟩
  · exact Nat.zero_le _
  · apply (walkLog_chainScript runs).hops_le each
    rintro log (rfl | ⟨d, seen, taken, result, runs⟩)
    · exact Nat.zero_le _
    · exact inner _ _ _ _ _ runs

/-- A chain is returned by filling the next used entry and then writing the index. -/
theorem runs_giveScript {head : UInt16} {len : UInt32} {result : Except MemoryError Unit}
    (runs : (q.giveScript head len).Runs log result) :
    ∃ first rest, log = ⟨.write .usedEntry q.usedEntryAddr (Virtqueue.encodeUsed head len), first⟩ ::
      rest ∧ (rest = [] ∨ ∃ second, rest = [⟨.write .usedIndex q.usedIndexAddr
        (LittleEndian.encode 2 (q.chainsReturned + 1).toNat), second⟩]) := by
  rw [Virtqueue.giveScript] at runs
  rcases Script.runs_andThen runs with ⟨e, failed, rfl⟩ | ⟨_, front, back, rfl, stored, onward⟩
  · obtain ⟨s, rfl, _⟩ := Script.runs_once_iff.mp failed
    exact ⟨_, [], rfl, .inl rfl⟩
  · obtain ⟨s, rfl, _⟩ := Script.runs_once_iff.mp stored
    obtain ⟨t, rfl, _⟩ := Script.runs_once_iff.mp onward
    exact ⟨_, _, rfl, .inr ⟨_, rfl⟩⟩

theorem orderly_giveScript (placed : q.layout.Placed) {head : UInt16} {len : UInt32}
    {result : Except MemoryError Unit} (runs : (q.giveScript head len).Runs log result) :
    Orderly q past log := by
  have less : q.chainsReturned.toNat % q.layout.size.toNat < q.layout.size.toNat :=
    Nat.mod_lt _ placed.size_pos
  have entry : Aim.usedEntry.Hit q q.usedEntryAddr (Virtqueue.encodeUsed head len).length := by
    rw [Virtqueue.length_encodeUsed]
    exact hit_ring (p := .used) placed rfl rfl (toNat_usedEntryAddr placed)
      (by simp only [Aim.width, Part.bytes]; omega)
  have index : Aim.usedIndex.Hit q q.usedIndexAddr
      (LittleEndian.encode 2 (q.chainsReturned + 1).toNat).length := by
    rw [LittleEndian.length_encode]
    exact hit_ring (p := .used) placed rfl rfl (toNat_usedIndexAddr placed)
      (by simp only [Aim.width, Part.bytes]; omega)
  obtain ⟨one, rest, rfl, rfl | ⟨two, rfl⟩⟩ := runs_giveScript runs
  · exact ⟨⟨entry, trivial⟩, trivial⟩
  · exact ⟨⟨entry, trivial⟩, ⟨index, trivial⟩, trivial⟩

theorem runs_interruptScript {result : Bool} (runs : q.interruptScript.Runs log result) :
    ∃ answer, log = [⟨.read .driverFlags q.layout.avail 2, answer⟩] := by
  cases runs with
  | ask s onward =>
    generalize ((Access.read .driverFlags q.layout.avail 2).perform s).2 = answer at onward
    cases answer <;> cases onward <;> exact ⟨_, rfl⟩

theorem orderly_interruptScript (placed : q.layout.Placed) {result : Bool}
    (runs : q.interruptScript.Runs log result) : Orderly q past log := by
  have flags : Aim.driverFlags.Hit q q.layout.avail 2 :=
    hit_ring (p := .available) (k := 0) placed rfl rfl rfl
      (by simp only [Aim.width, Part.bytes]; omega)
  obtain ⟨answer, rfl⟩ := runs_interruptScript runs
  exact ⟨⟨flags, trivial⟩, trivial⟩

theorem orderly_wishScript (placed : q.layout.Placed) {wanted : Bool}
    {result : Except MemoryError Unit} (runs : (q.wishScript wanted).Runs log result) :
    Orderly q past log := by
  obtain ⟨s, rfl, _⟩ := Script.runs_once_iff.mp runs
  refine ⟨⟨?_, trivial⟩, trivial⟩
  rw [LittleEndian.length_encode]
  exact hit_ring (p := .used) (k := 0) placed rfl rfl rfl
    (by simp only [Aim.width, Part.bytes]; omega)

end Rings

/-! ### Every operation -/

theorem orderly_script {q : Virtqueue} (placed : q.layout.Placed) {op : Operation}
    {log : List Event} {result : op.Result} (runs : (q.script op).Runs log result) :
    Orderly q [] log := by
  cases op with
  | take => exact orderly_takeScript placed runs
  | give head len => exact orderly_giveScript placed runs
  | interrupt => exact orderly_interruptScript placed runs
  | wish wanted => exact orderly_wishScript placed runs

/-- Only taking a chain reads descriptors. -/
theorem hops_script {q : Virtqueue} {kind : Aim → Bool} {cost bound : Nat}
    (words : kind .availIndex = false) (slots : kind .availEntry = false)
    (flags : kind .driverFlags = false) (each : ∀ i, (if kind (.entry i) then 1 else 0) ≤ cost)
    (inner : ∀ d seen taken log result, (indirectScript d seen taken).Runs log result →
      hops kind log ≤ bound)
    {op : Operation} {log : List Event} {result : op.Result}
    (runs : (q.script op).Runs log result) :
    hops kind log ≤ q.layout.size.toNat * cost + bound := by
  cases op with
  | take => exact hops_takeScript words slots each inner runs
  | give head len =>
    obtain ⟨one, rest, rfl, rfl | ⟨two, rfl⟩⟩ := runs_giveScript runs <;> exact Nat.zero_le _
  | interrupt =>
    obtain ⟨answer, rfl⟩ := runs_interruptScript runs
    simp [flags]
  | wish wanted =>
    obtain ⟨s, rfl, _⟩ := Script.runs_once_iff.mp runs
    exact Nat.zero_le _

/-- No walk through the queue's own table has more steps than the table has entries. -/
theorem hops_isEntry_le {q : Virtqueue} {op : Operation} {log : List Event} {result : op.Result}
    (runs : (q.script op).Runs log result) : hops Aim.isEntry log ≤ q.layout.size.toNat := by
  have bounded : hops Aim.isEntry log ≤ q.layout.size.toNat * 1 + 0 := by
    apply hops_script rfl rfl rfl (fun _ => Nat.le_refl 1) _ runs
    intro d seen taken log result inner
    exact hops_indirectScript (fun _ => Nat.le_refl 0) (fun n _ _ => Nat.le_of_eq (Nat.mul_zero n))
      inner
  omega

/-- No walk through an indirect table has more steps than the table has entries. -/
theorem hops_isNestedIn_le {q : Virtqueue} (table : UInt64) (len : Nat) {op : Operation}
    {log : List Event} {result : op.Result} (runs : (q.script op).Runs log result) :
    hops (Aim.isNestedIn table len) log ≤ len / 16 := by
  have bounded : hops (Aim.isNestedIn table len) log ≤ q.layout.size.toNat * 0 + len / 16 := by
    apply hops_script rfl rfl rfl (fun _ => Nat.le_refl 0) _ runs
    intro d seen taken log result inner
    by_cases same : d.addr = table ∧ d.len.toNat = len
    · have each (i : UInt16) :
          (if Aim.isNestedIn table len (.nested d.addr d.len.toNat i) then 1 else 0) ≤ 1 := by
        split <;> omega
      exact hops_indirectScript each (fun n _ size => by omega) inner
    · have other (i : UInt16) :
          (if Aim.isNestedIn table len (.nested d.addr d.len.toNat i) then 1 else 0) ≤ 0 := by
        simp [Aim.isNestedIn, same]
      exact hops_indirectScript other (fun n _ _ => by omega) inner
  omega

/-- Whatever memory, mappings and the positions of a queue became since it was brought up, its
operations compute no address that wraps, access nothing outside the ring or the checked table that
an access is for, and take no step beyond their budgets. -/
theorem accesses_stay_in_rings {q : Virtqueue} (up : q.BroughtUp) (op : Operation) :
    0 < q.layout.size.toNat ∧
      (∀ s, (q.script op).run s = q.perform s op ∧
        ∃ log, (q.script op).Runs log (q.perform s op).2) ∧
      ∀ log result, (q.script op).Runs log result →
        Orderly q [] log ∧ hops Aim.isEntry log ≤ q.layout.size.toNat ∧
        (∀ table len, hops (Aim.isNestedIn table len) log ≤ len / 16) ∧
        ∀ head len, op = .give head len →
          log.map Event.access <+:
            [.write .usedEntry q.usedEntryAddr (Virtqueue.encodeUsed head len),
              .write .usedIndex q.usedIndexAddr
                (LittleEndian.encode 2 (q.chainsReturned + 1).toNat)] := by
  refine ⟨up.placed.size_pos, fun s => ⟨run_script q op, exists_runs_perform q op⟩, ?_⟩
  intro log result runs
  refine ⟨orderly_script up.placed runs, hops_isEntry_le runs,
    fun table len => hops_isNestedIn_le table len runs, ?_⟩
  rintro head len rfl
  obtain ⟨one, rest, rfl, rfl | ⟨two, rfl⟩⟩ := runs_giveScript runs
  · exact ⟨[_], rfl⟩
  · exact List.prefix_rfl

theorem sampleQueue_stays_in_rings :
    ∃ log, (Machine.sampleQueue.script .take).Runs log (.ok (some Machine.sampleChain)) ∧
      Orderly Machine.sampleQueue [] log ∧ hops Aim.isEntry log ≤ 4 := by
  obtain ⟨_, carried, bounded⟩ := accesses_stay_in_rings Machine.broughtUp_sampleQueue .take
  have found : Machine.sampleQueue.nextChain (Machine.sampleMachine.space Machine.sampleQueue) =
      .ok (some Machine.sampleChain) := by decide +kernel
  obtain ⟨_, log, runs⟩ := carried (Machine.sampleMachine.space Machine.sampleQueue)
  obtain ⟨orderly, short, _⟩ := bounded log _ runs
  simp only [Virtqueue.perform, found] at runs
  exact ⟨log, runs, orderly, short⟩

end VirtioMmio.Queue
