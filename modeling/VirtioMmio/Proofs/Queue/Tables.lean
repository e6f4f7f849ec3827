import VirtioMmio.Proofs.Queue.Chains

/-!
Chains that end in an indirect table. Whether a queue takes them is up to what it was brought up
with, and to nothing else. Main result: `takeChain_of_tableChain`.
-/

namespace VirtioMmio

namespace Queue

open Vring (Chain Descriptor)
open Dma (Space)

/-- A chain as a driver should write it for a queue that may use indirect tables: the last of its
descriptors in the queue's own table names another one. -/
structure TableChain (q : Virtqueue) (s : Space) (head : UInt16) (chain : Chain) : Prop where
  wellFormed : WellFormedChain { q with indirect := true } s head chain
  table : ∃ front last,
    Path (ReadsEntry s q.layout.desc) q.layout.size.toNat head (front ++ [last]) ∧
      last.desc.isIndirect = true

/-- A walk along a trail whose last descriptor is indirect comes to entering that descriptor. -/
theorem follow_of_trail {s : Space} {table : UInt64} {count first : UInt16}
    {enter : Descriptor → Bool → List Descriptor → Except QueueError (List Descriptor)}
    {front : List Hop} {last : Hop} {budget : Nat} {seen : Bool} {taken : List Descriptor}
    (trail : Trail (ReadsAt s table) count.toNat first (front ++ [last]))
    (indirect : last.desc.isIndirect = true) (short : (front ++ [last]).length ≤ budget)
    (admitted : Admits s seen (front.map Hop.desc)) :
    follow s table count enter budget first seen taken =
      enter last.desc (seen || (front.map Hop.desc).any Descriptor.isWritable)
        ((front.map Hop.desc).reverse ++ taken) := by
  -- One step of the walk is one entry of the trail, as long as the last one is not reached.
  induction front generalizing first budget seen taken with
  | nil =>
    obtain ⟨budget, rfl⟩ : ∃ left, budget = left + 1 := Nat.exists_eq_add_of_le' short
    cases trail with
    | stop inside found ends =>
      rw [follow_step inside found, if_pos indirect]
      simp
    | step inside found direct linked onward =>
      obtain ⟨_, _, bad⟩ := onward.head
      cases bad
  | cons hop front ih =>
    rw [List.map_cons, admits_cons] at admitted
    obtain ⟨w, passed, admitted⟩ := admitted
    rw [List.cons_append] at trail short
    obtain ⟨budget, rfl⟩ : ∃ left, budget = left + 1 :=
      ⟨budget - 1, by rw [List.length_cons] at short; omega⟩
    generalize tail : front ++ [last] = rest at trail
    cases trail with
    | stop => simp at tail
    | @step _ d _ inside found direct linked onward =>
      subst tail
      have later : follow s table count enter budget d.next w (d :: taken) = _ :=
        ih onward (Nat.le_of_succ_le_succ short) admitted
      rw [follow_step inside found, direct, if_neg Bool.false_ne_true, passed]
      dsimp only
      rw [if_pos linked, later, seen_of_checkBuffer passed]
      simp [Bool.or_assoc]

/-- A queue that may not use indirect tables refuses the chain for that reason, and not for another
one. -/
theorem Virtqueue.chainAt_of_tableChain {q : Virtqueue} (placed : q.layout.Placed) {s : Space}
    (sound : s.ram.WellFormed) {head : UInt16} {chain : Chain} (named : TableChain q s head chain) :
    q.chainAt s head = if q.indirect then .ok chain else .error .badIndirect := by
  obtain ⟨wellFormed, front, last, way, kind⟩ := named
  cases allowed : q.indirect with
  | true =>
    have same : { q with indirect := true } = q := by rw [← allowed]
    rw [same] at wellFormed
    exact (q.chainAt_eq_ok_iff placed sound head chain).mpr wellFormed
  | false =>
    obtain ⟨_, ⟨path, way', expands⟩, ordered, granted⟩ := wellFormed
    obtain ⟨trail, _⟩ := (path_iff_readTrail placed s head _).mp way
    obtain ⟨trail', _⟩ := (path_iff_readTrail placed s head _).mp way'
    -- There is one path only, so the chain was expanded along the one that ends in a table.
    cases trail.unique (readsAt_functional s q.layout.desc) trail'
    have admitted : Admits s false (front.map Hop.desc) := by
      have whole : Admits s false chain.descriptors := ⟨by simp, ordered, granted⟩
      generalize chain.descriptors = all at expands whole
      generalize path : front ++ [last] = hops at expands
      cases expands with
      | direct direct =>
        subst path
        rw [direct last (by simp)] at kind
        cases kind
      | indirect kind' allowed' names =>
        obtain ⟨rfl, _⟩ := List.append_inj' path rfl
        exact ((admits_append s false _ _).mp whole).1
    simp only [chainAt]
    rw [follow_of_trail trail kind way.length_le admitted]
    simp [enter, allowed]

end Queue

namespace Machine

open Queue (TableChain Virtqueue)
open Vring (Chain)

/-- A live queue that is offered a chain which ends in an indirect table takes it if it may use such
tables, and fails otherwise. -/
theorem takeChain_of_tableChain {m : Machine} {number : Nat} {q : Virtqueue}
    (live : m.liveQueue number = .ok q) (placed : q.layout.Placed) (sound : m.ram.WellFormed)
    {head : UInt16} (offered : q.nextHead (m.space q) = .ok (some head)) {chain : Chain}
    (named : TableChain q (m.space q) head chain) :
    m.takeChain number =
      if q.indirect then (m.modifyQueue number (·.stepAvailable), .ok (some chain))
      else (m.fail number, .error .badIndirect) := by
  have found := q.chainAt_of_tableChain placed (s := m.space q) sound named
  simp only [takeChain, live, Virtqueue.nextChain, offered, found]
  cases q.indirect <;> rfl

end Machine

end VirtioMmio
