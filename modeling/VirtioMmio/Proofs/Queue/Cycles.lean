import VirtioMmio.Proofs.Machine.Requests
import VirtioMmio.Proofs.Queue.Bounds

/-!
Chains that are too long. A walk looks for no repetition, it counts steps; but a walk that outlasts
its table has met an entry twice, so it is a cycle that is reported. Main result:
`tooLong_only_on_cycles`, with the number of descriptors that any walk reads.
-/

namespace VirtioMmio.Queue

open Dma (Space)
open Vring (Chain Descriptor)

/-! ### Links -/

/-- The links from `first` on visit these entries of a table, in order. -/
inductive Visits (entry : UInt16 → Descriptor → Prop) (count : Nat) : UInt16 → List UInt16 → Prop
  | here {i : UInt16} (inside : i.toNat < count) : Visits entry count i [i]
  | step {i : UInt16} {d : Descriptor} {rest : List UInt16} (inside : i.toNat < count)
      (found : entry i d) (direct : d.isIndirect = false) (linked : d.hasNext = true)
      (onward : Visits entry count d.next rest) : Visits entry count i (i :: rest)

/-- The links from `first` on visit some entry twice. -/
def Loops (entry : UInt16 → Descriptor → Prop) (count : Nat) (first : UInt16) : Prop :=
  ∃ visited, Visits entry count first visited ∧ ¬ visited.Nodup

section Links

variable {entry entry' : UInt16 → Descriptor → Prop} {count : Nat} {first : UInt16}
  {visited : List UInt16} {path : List Hop}

theorem Visits.inside (visits : Visits entry count first visited) :
    ∀ i ∈ visited, i.toNat < count := by
  induction visits with
  | here inside => simpa using inside
  | step inside _ _ _ _ ih => exact List.forall_mem_cons.mpr ⟨inside, ih⟩

theorem Visits.congr (same : ∀ i d, i.toNat < count → (entry i d ↔ entry' i d))
    (visits : Visits entry count first visited) : Visits entry' count first visited := by
  induction visits with
  | here inside => exact .here inside
  | step inside found direct linked _ ih =>
    exact .step inside ((same _ _ inside).mp found) direct linked ih

/-- More visits than there are entries visit some entry twice. -/
theorem Visits.loops (visits : Visits entry count first visited) (long : count < visited.length) :
    Loops entry count first := by
  refine ⟨visited, visits, ?_⟩
  intro once
  have short := length_le_of_nodup once visits.inside
  omega

/-- Where a trail leads to an end, links visit nothing else. -/
theorem Visits.of_trail (functional : ∀ i d e, entry i d → entry i e → d = e)
    (trail : Trail entry count first path) (visits : Visits entry count first visited) :
    visited <+: path.map Hop.index := by
  induction trail generalizing visited with
  | stop inside found ends =>
    cases visits with
    | here => exact List.prefix_rfl
    | step _ found' direct linked =>
      rw [functional _ _ _ found found', direct, linked] at ends
      simp at ends
  | @step i d rest inside found direct linked onward ih =>
    cases visits with
    | here => exact ⟨rest.map Hop.index, rfl⟩
    | step _ found' _ _ onward' =>
      cases functional _ _ _ found found'
      exact (List.prefix_cons_inj i).mpr (ih onward')

/-- A path is no loop. -/
theorem Path.not_loops (functional : ∀ i d e, entry i d → entry i e → d = e)
    (way : Path entry count first path) : ¬ Loops entry count first := by
  rintro ⟨visited, visits, twice⟩
  obtain ⟨trail, _⟩ := (path_iff_trail functional first path).mp way
  exact twice ((Visits.of_trail functional trail visits).sublist.nodup way.once)

end Links

theorem readsEntry_functional (s : Space) (table : UInt64) (i : UInt16) (d e : Descriptor)
    (one : ReadsEntry s table i d) (two : ReadsEntry s table i e) : d = e := by
  obtain ⟨a, exact, read⟩ := one
  obtain ⟨b, exact', read'⟩ := two
  cases UInt64.toNat_inj.mp (exact.trans exact'.symm)
  exact Except.ok.inj (read.symm.trans read')

/-! ### Walks that are given up -/

/-- A walk through the table that comes to entry `i` reads `d` there, or reads it later on. -/
inductive Reaches (s : Space) (table : UInt64) (count : UInt16) : UInt16 → Descriptor → Prop
  | here {i : UInt16} {d : Descriptor} (inside : i < count)
    (found : s.readDescriptor (entryAddr table i) = .ok d) : Reaches s table count i d
  | later {i : UInt16} {d e : Descriptor} (inside : i < count)
    (found : s.readDescriptor (entryAddr table i) = .ok d) (direct : d.isIndirect = false)
    (linked : d.hasNext = true) (onward : Reaches s table count d.next e) :
    Reaches s table count i e

section Walk

variable {s : Space} {table : UInt64} {count : UInt16}
  {enter : Descriptor → Bool → List Descriptor → Except QueueError (List Descriptor)}
  {budget : Nat} {index : UInt16} {seen : Bool} {taken : List Descriptor} {n : UInt16}

theorem checkBuffer_ne_tooLong (s : Space) (seen : Bool) (d : Descriptor) (n : UInt16) :
    checkBuffer s seen d ≠ .error (.chainTooLong n) := by
  intro refused
  rw [checkBuffer] at refused
  split at refused
  · cases refused
  · dsimp only at refused
    split at refused <;> cases refused

/-- A walk that is given up visited one entry more than its budget allows, or came to an indirect
descriptor that was given up. -/
theorem follow_tooLong
    (given : follow s table count enter budget index seen taken = .error (.chainTooLong n)) :
    (n = count ∧ ∃ visited, Visits (ReadsAt s table) count.toNat index visited ∧
        visited.length = budget + 1) ∨
      ∃ d seen taken, Reaches s table count index d ∧ d.isIndirect = true ∧
        enter d seen taken = .error (.chainTooLong n) := by
  -- One entry is visited for each unit of the budget, and one more when it has run out.
  induction budget generalizing index seen taken with
  | zero =>
    rw [follow] at given
    split at given
    · cases given
    next inside =>
      cases given
      exact .inl ⟨rfl, [index], .here (UInt16.lt_iff_toNat_lt.mp (UInt16.not_le.mp inside)), rfl⟩
  | succ budget ih =>
    rw [follow] at given
    split at given
    · cases given
    next outside =>
    have inside := UInt16.not_le.mp outside
    split at given
    · cases given
    next d found =>
    split at given
    next indirect => exact .inr ⟨d, seen, taken, .here inside found, indirect, given⟩
    next buffer =>
    have direct : d.isIndirect = false := by simpa using buffer
    split at given
    next e refused =>
      cases given
      exact absurd refused (checkBuffer_ne_tooLong s seen d n)
    next w passed =>
    split at given
    next linked =>
      rcases ih given with ⟨same, visited, visits, long⟩ | ⟨e, seen, taken, reached, indirect, given⟩
      · refine .inl ⟨same, index :: visited, ?_, by rw [List.length_cons, long]⟩
        exact .step (UInt16.lt_iff_toNat_lt.mp inside) found direct linked visits
      · exact .inr ⟨e, seen, taken, .later inside found direct linked reached, indirect, given⟩
    · cases given

/-- A walk through an indirect table is given up on a loop in that table only. -/
theorem followIndirect_tooLong {d : Descriptor}
    (given : followIndirect s d seen taken = .error (.chainTooLong n)) :
    d.len.toNat = 16 * n.toNat ∧ s.check d.addr d.len.toNat .reading = .ok () ∧
      Loops (ReadsEntry s d.addr) n.toNat 0 := by
  unfold followIndirect at given
  dsimp only at given
  split at given
  · cases given
  next shape =>
  simp only [not_or, Nat.not_lt, maxIndirect] at shape
  split at given
  · cases given
  next passed =>
  rcases follow_tooLong given with ⟨rfl, visited, visits, long⟩ | ⟨_, _, _, _, _, given⟩
  · have count : (UInt16.ofNat (d.len.toNat / 16)).toNat = d.len.toNat / 16 := by
      rw [UInt16.toNat_ofNat', Nat.mod_eq_of_lt (by omega)]
    have size : d.len.toNat = 16 * (UInt16.ofNat (d.len.toNat / 16)).toNat := by omega
    refine ⟨size, passed, ?_⟩
    -- The whole table passed its check, so no address of an entry wraps round.
    obtain ⟨a, located⟩ := (s.check_eq_ok_iff ..).mp passed
    have ends := (Space.locate_bounds located).1
    exact (visits.congr fun i e inside =>
      readsAt_iff_readsEntry s (by omega) e).loops (by omega)
  · cases given

/-- The walk from a head is given up on a loop only, in the queue's own table or in one that the
walk enters. -/
theorem chainAt_tooLong {q : Virtqueue} (placed : q.layout.Placed) {head : UInt16}
    (given : q.chainAt s head = .error (.chainTooLong n)) :
    (n = q.layout.size ∧ Loops (ReadsEntry s q.layout.desc) n.toNat head) ∨
      ∃ d, Reaches s q.layout.desc q.layout.size head d ∧ d.isIndirect = true ∧
        d.len.toNat = 16 * n.toNat ∧ s.check d.addr d.len.toNat .reading = .ok () ∧
        Loops (ReadsEntry s d.addr) n.toNat 0 := by
  have ends : q.layout.desc.toNat + 16 * q.layout.size.toNat < 2 ^ 64 := placed.ends .descriptor
  simp only [Virtqueue.chainAt] at given
  split at given
  next e walked =>
    cases given
    rcases follow_tooLong walked with
      ⟨rfl, visited, visits, long⟩ | ⟨d, seen, taken, reached, indirect, given⟩
    · refine .inl ⟨rfl, ?_⟩
      exact (visits.congr fun i e inside => readsAt_iff_readsEntry s (by omega) e).loops (by omega)
    · rw [Virtqueue.enter] at given
      split at given
      · cases given
      · exact .inr ⟨d, reached, indirect, followIndirect_tooLong given⟩
  · cases given

/-- The indirect descriptor that a walk comes to is the last one of its trail. -/
theorem Reaches.last {path : List Hop} {first : UInt16} {d : Descriptor}
    (reached : Reaches s table count first d) (indirect : d.isIndirect = true)
    (trail : Trail (ReadsAt s table) count.toNat first path) :
    ∃ last ∈ path.getLast?, last.desc = d := by
  induction trail with
  | stop _ found ends =>
    cases reached with
    | here _ found' => exact ⟨_, rfl, readsAt_functional s table _ _ _ found found'⟩
    | later _ found' direct linked =>
      cases readsAt_functional s table _ _ _ found found'
      rw [direct, linked] at ends
      simp at ends
  | step _ found direct _ onward ih =>
    cases reached with
    | here _ found' =>
      cases readsAt_functional s table _ _ _ found found'
      rw [direct] at indirect
      cases indirect
    | later _ found' _ _ reached =>
      cases readsAt_functional s table _ _ _ found found'
      obtain ⟨last, found, same⟩ := ih reached
      obtain ⟨e, rest, rfl⟩ := onward.head
      exact ⟨last, found, same⟩

theorem nextHead_ne_tooLong (q : Virtqueue) (s : Space) (n : UInt16) :
    q.nextHead s ≠ .error (.chainTooLong n) := by
  intro refused
  rw [Virtqueue.nextHead] at refused
  split at refused
  · cases refused
  · dsimp only at refused
    split at refused
    · cases refused
    · split at refused
      · cases refused
      · split at refused <;> cases refused

/-- A chain that is too long is the one at the head that is offered. -/
theorem nextChain_tooLong {q : Virtqueue} (given : q.nextChain s = .error (.chainTooLong n)) :
    ∃ head, q.nextHead s = .ok (some head) ∧ q.chainAt s head = .error (.chainTooLong n) := by
  rw [Virtqueue.nextChain] at given
  split at given
  next e refused =>
    cases given
    exact absurd refused (nextHead_ne_tooLong q s n)
  · cases given
  next head offered =>
    split at given
    next e walked =>
      cases given
      exact ⟨head, offered, walked⟩
    · cases given

end Walk

/-! ### The work of a walk -/

/-- An entry of the queue's own table or of an indirect one. -/
def Aim.isDescriptor : Aim → Bool
  | .entry _ | .nested .. => true
  | _ => false

/-- No walk reads more descriptors than the two tables have entries. -/
theorem hops_isDescriptor_le {q : Virtqueue} {log : List Event}
    {result : Except QueueError (Option Chain)} (runs : q.takeScript.Runs log result) :
    hops Aim.isDescriptor log ≤ q.layout.size.toNat + maxIndirect := by
  have bounded : hops Aim.isDescriptor log ≤ q.layout.size.toNat * 1 + maxIndirect := by
    apply hops_takeScript rfl rfl (fun _ => Nat.le_refl 1) _ runs
    intro d seen taken log result inner
    exact hops_indirectScript (fun _ => Nat.le_refl 1) (fun n most _ => by omega) inner
  omega

end VirtioMmio.Queue

namespace VirtioMmio.Machine

open Queue (Virtqueue ReadsEntry Reaches Loops Path)
open Vring (Descriptor)

variable {m : Machine} {number : Nat} {q : Virtqueue}

/-- A chain is reported as too long only if the links of some table visit an entry twice, and then
with the number of entries of that table. So no path is ever too long. No walk reads more
descriptors than its tables have entries, whatever happens to memory meanwhile. -/
theorem tooLong_only_on_cycles (live : m.liveQueue number = .ok q) (up : q.BroughtUp) :
    (∀ n, (m.takeChain number).2 = .error (.chainTooLong n) →
      ∃ head, q.nextHead (m.space q) = .ok (some head) ∧
        ((n = q.layout.size ∧ Loops (ReadsEntry (m.space q) q.layout.desc) n.toNat head) ∨
          ∃ d, Reaches (m.space q) q.layout.desc q.layout.size head d ∧ d.isIndirect = true ∧
            d.len.toNat = 16 * n.toNat ∧
            (m.space q).check d.addr d.len.toNat .reading = .ok () ∧
            Loops (ReadsEntry (m.space q) d.addr) n.toNat 0)) ∧
      (∀ head path, q.nextHead (m.space q) = .ok (some head) →
        Path (ReadsEntry (m.space q) q.layout.desc) q.layout.size.toNat head path →
        (∀ last ∈ path.getLast?, last.desc.isIndirect = true → ∀ n, last.desc.len.toNat = 16 * n →
          ∃ inner, Path (ReadsEntry (m.space q) last.desc.addr) n 0 inner) →
        ∀ n, (m.takeChain number).2 ≠ .error (.chainTooLong n)) ∧
      (∀ s, (q.script .take).run s = (s.ram, q.nextChain s) ∧
        ∃ log, (q.script .take).Runs log (q.nextChain s)) ∧
      ∀ log result, (q.script .take).Runs log result →
        Queue.hops Queue.Aim.isDescriptor log ≤ q.layout.size.toNat + Queue.maxIndirect := by
  refine ⟨?_, ?_, fun s => ⟨Queue.run_takeScript q, Queue.exists_runs_perform q .take⟩,
    fun log result => Queue.hops_isDescriptor_le⟩
  · intro n given
    obtain ⟨head, offered, given⟩ :=
      Queue.nextChain_tooLong ((takeChain_eq_error_iff live _).mp given)
    exact ⟨head, offered, Queue.chainAt_tooLong up.placed given⟩
  · intro head path offered way inner n given
    -- A path that ends cannot loop, neither the one from the head nor the one inside its table.
    obtain ⟨head', offered', given⟩ :=
      Queue.nextChain_tooLong ((takeChain_eq_error_iff live _).mp given)
    cases offered.symm.trans offered'
    rcases Queue.chainAt_tooLong up.placed given with
      ⟨rfl, loops⟩ | ⟨d, reached, indirect, size, _, loops⟩
    · exact way.not_loops (Queue.readsEntry_functional _ _) loops
    · obtain ⟨trail, _⟩ := (Queue.path_iff_readTrail up.placed (m.space q) head path).mp way
      obtain ⟨last, ending, rfl⟩ := reached.last indirect trail
      obtain ⟨path, way⟩ := inner last ending indirect n.toNat size
      exact way.not_loops (Queue.readsEntry_functional _ _) loops

/-! Two buffers that lead to each other. -/

def knottedQueue : Virtqueue where
  index := 0
  layout := ⟨2, 0x1000, 0x1040, 0x1080⟩
  indirect := false

def knottedMachine : Machine where
  ram := {
    regions := [⟨0x1000, 0x1000, .both⟩]
    store := (Memory.Store.empty.write 0x1000
      (Descriptor.encode ⟨0x1100, 4, 1, 1⟩ ++ Descriptor.encode ⟨0x1200, 8, 1, 0⟩)).write 0x1042
      [1, 0, 1, 0] }
  line := ⟨48, .nothing⟩
  queues := [knottedQueue]

theorem broughtUp_knottedQueue : knottedQueue.BroughtUp :=
  ⟨{ knottedMachine with queues := [] }, knottedMachine,
    { size := 2, desc := 0x1000, driver := 0x1040, device := 0x1080 },
    { size := 2, desc := 0x1000, driver := 0x1040, device := 0x1080, live := some 0 }, 256,
    rfl, rfl, rfl⟩

theorem knotted_tooLong :
    (knottedMachine.takeChain 0).2 = .error (.chainTooLong 2) ∧
      ∃ head, knottedQueue.nextHead (knottedMachine.space knottedQueue) = .ok (some head) ∧
        (Loops (ReadsEntry (knottedMachine.space knottedQueue) 0x1000) 2 head ∨
          ∃ d : Descriptor, d.isIndirect = true ∧
            Loops (ReadsEntry (knottedMachine.space knottedQueue) d.addr) 2 0) := by
  have given : (knottedMachine.takeChain 0).2 = .error (.chainTooLong 2) := by decide +kernel
  have live : knottedMachine.liveQueue 0 = .ok knottedQueue := rfl
  obtain ⟨knots, _⟩ := tooLong_only_on_cycles live broughtUp_knottedQueue
  obtain ⟨head, offered, ⟨_, loops⟩ | ⟨d, _, indirect, _, _, loops⟩⟩ := knots 2 given
  · exact ⟨given, head, offered, .inl loops⟩
  · exact ⟨given, head, offered, .inr ⟨d, indirect, loops⟩⟩

end VirtioMmio.Machine
