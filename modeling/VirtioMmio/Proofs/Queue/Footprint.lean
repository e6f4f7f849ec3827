import VirtioMmio.Proofs.Dma.Footprint
import VirtioMmio.Queue.Transfer
import VirtioMmio.Queue.Virtqueue

/-!
The footprint of what a queue does. Each operation either reads, and answers the same in spaces that
agree, or writes, and then stays within its space and answers the same wherever the places are the
same.
-/

namespace VirtioMmio.Queue

open Vring (Descriptor)
open Dma.Space (Agrees SamePlaces Within)
open Dma (Space)

/-! ### Reading -/

section Reading

variable {s t : Space}

theorem checkBuffer_congr (same : SamePlaces s t) (seen : Bool) (d : Descriptor) :
    checkBuffer t seen d = checkBuffer s seen d := by
  simp only [checkBuffer, same.check]

/-- A walk that may look at `budget` more entries, is at entry `i`, and has `seen` a writable buffer
or not, comes to a descriptor: to the one at `i`, or past it to a later one if it is a buffer that
passes and has a link. The last argument tells whether a writable buffer was seen before that. -/
inductive Arrives (s : Space) (table : UInt64) (count : UInt16) :
    Nat → UInt16 → Bool → Descriptor → Bool → Prop
  | here {budget : Nat} {i : UInt16} {seen : Bool} {d : Descriptor} (inside : i < count)
    (found : s.readDescriptor (entryAddr table i) = .ok d) :
    Arrives s table count (budget + 1) i seen d seen
  | later {budget : Nat} {i : UInt16} {seen seen' last : Bool} {d e : Descriptor}
    (inside : i < count) (found : s.readDescriptor (entryAddr table i) = .ok d)
    (direct : d.isIndirect = false) (passed : checkBuffer s seen d = .ok seen')
    (linked : d.hasNext = true) (onward : Arrives s table count budget d.next seen' e last) :
    Arrives s table count (budget + 1) i seen e last

/-- A walk comes to the same in two spaces if the same is read in both, and if what the walk arrives
at passes and leads on alike. -/
theorem follow_congr {table : UInt64} {count : UInt16}
    {enter enter' : Descriptor → Bool → List Descriptor → Except QueueError (List Descriptor)}
    {budget : Nat} {index : UInt16} {seen : Bool} {taken : List Descriptor}
    (read : ∀ i, i < count →
      t.readDescriptor (entryAddr table i) = s.readDescriptor (entryAddr table i))
    (checked : ∀ d last, Arrives s table count budget index seen d last → d.isIndirect = false →
      checkBuffer t last d = checkBuffer s last d)
    (entered : ∀ d last taken, Arrives s table count budget index seen d last →
      d.isIndirect = true → enter' d last taken = enter d last taken) :
    follow t table count enter' budget index seen taken =
      follow s table count enter budget index seen taken := by
  induction budget generalizing index seen taken with
  | zero => rfl
  | succ budget ih =>
    rw [follow, follow]
    split
    · rfl
    next outside =>
    have inside : index < count := UInt16.not_le.mp outside
    rw [read index inside]
    cases found : s.readDescriptor (entryAddr table index) with
    | error e => rfl
    | ok d =>
      have here : Arrives s table count (budget + 1) index seen d seen := .here inside found
      cases kind : d.isIndirect with
      | true =>
        simp only [kind, if_true]
        exact entered d seen taken here kind
      | false =>
        simp only [kind, Bool.false_eq_true, if_false, checked d seen here kind]
        cases passed : checkBuffer s seen d with
        | error e => rfl
        | ok seen' =>
          dsimp only
          split
          next linked =>
            -- What the rest of the walk arrives at, the whole walk arrives at by this link.
            have onward (e : Descriptor) (last : Bool)
                (arrives : Arrives s table count budget d.next seen' e last) :
                Arrives s table count (budget + 1) index seen e last :=
              .later inside found kind passed linked arrives
            exact ih (fun e last arrives => checked e last (onward e last arrives))
              (fun e last taken arrives => entered e last taken (onward e last arrives))
          · rfl

theorem followIndirect_congr (agrees : Agrees s t) (d : Descriptor) (seen : Bool)
    (taken : List Descriptor) : followIndirect t d seen taken = followIndirect s d seen taken := by
  have walked (count : UInt16) :
      follow t d.addr count (fun _ _ _ => .error .badIndirect) count.toNat 0 seen taken =
        follow s d.addr count (fun _ _ _ => .error .badIndirect) count.toNat 0 seen taken :=
    follow_congr (fun _ _ => agrees.readDescriptor _)
      (fun d seen _ _ => checkBuffer_congr agrees.toSamePlaces seen d) (fun _ _ _ _ _ => rfl)
  simp only [followIndirect, agrees.check, walked]

namespace Virtqueue

theorem chainAt_congr (q : Virtqueue) (agrees : Agrees s t) (head : UInt16) :
    q.chainAt t head = q.chainAt s head := by
  have entered (d : Descriptor) (seen : Bool) (taken : List Descriptor) :
      q.enter t d seen taken = q.enter s d seen taken := by
    simp only [enter, followIndirect_congr agrees]
  have walked : follow t q.layout.desc q.layout.size (q.enter t) q.layout.size.toNat head false [] =
      follow s q.layout.desc q.layout.size (q.enter s) q.layout.size.toNat head false [] :=
    follow_congr (fun _ _ => agrees.readDescriptor _)
      (fun d seen _ _ => checkBuffer_congr agrees.toSamePlaces seen d)
      (fun d seen taken _ _ => entered d seen taken)
  simp only [chainAt, walked]

theorem nextChain_congr (q : Virtqueue) (agrees : Agrees s t) :
    q.nextChain t = q.nextChain s := by
  simp only [nextChain, nextHead, agrees.read16, q.chainAt_congr agrees]

theorem wantsInterrupt_congr (q : Virtqueue) (agrees : Agrees s t) :
    q.wantsInterrupt t = q.wantsInterrupt s := by
  simp only [wantsInterrupt, agrees.read16]

end Virtqueue

theorem gather_congr (agrees : Agrees s t) (buffers : List Descriptor)
    (filled rest : List UInt8) : gather t buffers filled rest = gather s buffers filled rest := by
  induction buffers generalizing filled rest with
  | nil => rfl
  | cons d buffers ih => simp only [gather, agrees.read, ih]

end Reading

/-! ### Writing -/

section Writing

variable {s t : Space}

theorem scatter_within (s : Space) (buffers : List Descriptor) (copied : Nat)
    (rest : List UInt8) : s.Within (scatter s buffers copied rest).1 := by
  induction buffers generalizing s copied rest with
  | nil => exact .refl s
  | cons d buffers ih =>
    unfold scatter
    split
    · exact .refl s
    · dsimp only
      split
      · exact .refl s
      next ram done => exact (Space.write_within done).trans (ih _ _ _)

theorem scatter_congr (same : SamePlaces s t) (buffers : List Descriptor) (copied : Nat)
    (rest : List UInt8) :
    (scatter t buffers copied rest).2 = (scatter s buffers copied rest).2 := by
  induction buffers generalizing s t copied rest with
  | nil => rfl
  | cons d buffers ih =>
    unfold scatter
    split
    · rfl
    · dsimp only
      rcases same.write d.addr (rest.take (min d.len.toNat rest.length)) with
        ⟨e, one, two⟩ | ⟨ram, ram', one, two, still⟩
      · rw [one, two]
      · rw [one, two]
        exact ih still _ _

namespace Virtqueue

theorem putUsed_within (q : Virtqueue) (s : Space) (head : UInt16) (len : UInt32) :
    s.Within (q.putUsed s head len).1 := by
  simp only [putUsed]
  split
  · exact .refl s
  next filled stored =>
    have first := Space.write_within stored
    split
    · exact first
    next ram published => exact first.trans (Space.write16_within published)

theorem putUsed_congr (q : Virtqueue) (same : SamePlaces s t) (head : UInt16) (len : UInt32) :
    (q.putUsed t head len).2 = (q.putUsed s head len).2 := by
  simp only [putUsed, storeUsed, publishUsed, Space.write16]
  rcases same.write q.usedEntryAddr (encodeUsed head len) with
    ⟨e, one, two⟩ | ⟨ram, ram', one, two, still⟩
  · rw [one, two]
  · rw [one, two]
    dsimp only
    rcases still.write q.usedIndexAddr (LittleEndian.encode 2 (q.chainsReturned + 1).toNat) with
      ⟨e, one, two⟩ | ⟨ram, ram', one, two, _⟩ <;> rw [one, two]

theorem putWish_within (q : Virtqueue) {s : Space} {wanted : Bool} {ram : Memory.Ram}
    (done : q.putWish s wanted = .ok ram) : s.Within ram :=
  Space.write16_within done

end Virtqueue

end Writing

end VirtioMmio.Queue
