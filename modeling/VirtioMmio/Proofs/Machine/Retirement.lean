import VirtioMmio.Proofs.Machine.Requests

/-!
Which virtqueues are retired. Work on a virtqueue moves it or fails it and leaves all else as it is,
retirement included; a virtqueue that is retired serves nothing. Main results: `Outcome.lasting` and
`retired?_foldl_retireLive`.
-/

namespace VirtioMmio

open Queue (Registers Virtqueue)

namespace Queue.Virtqueue

/-- A virtqueue without what work on it changes. -/
def lasting (q : Virtqueue) : Virtqueue :=
  { q with chainsTaken := 0, chainsReturned := 0, failed := false }

end Queue.Virtqueue

namespace Machine

/-! ### What work leaves alone -/

/-- The virtqueues without what work on them changes. -/
def lasting (m : Machine) : List Virtqueue :=
  m.queues.map Virtqueue.lasting

theorem map_modify {α β : Type} {f : α → β} {g : α → α} (blind : ∀ x, f (g x) = f x)
    (list : List α) (n : Nat) : (list.modify n g).map f = list.map f := by
  apply List.ext_getElem?
  intro i
  rw [List.getElem?_map, List.getElem?_map, List.getElem?_modify]
  cases list[i]? with
  | none => rfl
  | some x =>
    simp only [Option.map_eq_map, Option.map_some]
    split
    · rw [blind]
    · rfl

theorem lasting_modifyQueue (m : Machine) (number : Nat) {f : Virtqueue → Virtqueue}
    (blind : ∀ q, (f q).lasting = q.lasting) : (m.modifyQueue number f).lasting = m.lasting :=
  map_modify blind m.queues number

theorem lasting_fail (m : Machine) (number : Nat) : (m.fail number).lasting = m.lasting := by
  simp only [fail]
  split
  · rfl
  · split
    · rfl
    · exact lasting_modifyQueue m number fun _ => rfl

namespace Outcome

variable {number : Nat} {m m' : Machine}

theorem lasting (outcome : Outcome number m m') : m'.lasting = m.lasting := by
  cases outcome with
  | kept => rfl
  | failed => exact lasting_fail m number
  | took => exact lasting_modifyQueue m number fun _ => rfl
  | gave => exact lasting_modifyQueue m number fun _ => rfl

end Outcome

/-! ### Retiring -/

/-- Whether a virtqueue is retired; `none` if there is none of the number. -/
def retired? (m : Machine) (number : Nat) : Option Bool :=
  m.queues[number]?.map (·.retired)

theorem retired?_of_lasting {m m' : Machine} (same : m'.lasting = m.lasting) (number : Nat) :
    m'.retired? number = m.retired? number := by
  have each (m : Machine) : m.retired? number = m.lasting[number]?.map (·.retired) := by
    rw [retired?, lasting, List.getElem?_map, Option.map_map]
    rfl
  rw [each, each, same]

theorem liveQueue_retired {m : Machine} {number : Nat} (ended : m.retired? number = some true) :
    m.liveQueue number = .error .retired := by
  obtain ⟨q, found, retired⟩ := Option.map_eq_some_iff.mp ended
  rw [liveQueue, found]
  dsimp only
  rw [retired, if_pos rfl]

theorem retired?_retire (m : Machine) (number other : Nat) :
    (m.retire number).retired? other = (m.retired? other).map (· || number == other) := by
  simp only [retired?, retire, modifyQueue, List.getElem?_modify, Option.map_map]
  cases m.queues[other]? with
  | none => rfl
  | some q =>
    simp only [Option.map_eq_map, Option.map_some, Function.comp, Option.some.injEq]
    by_cases same : number = other
    · simp [same]
    · simp [same]

theorem retired?_retireLive (m : Machine) (r : Registers) (number : Nat) :
    (m.retireLive r).retired? number = (m.retired? number).map (· || r.live == some number) := by
  simp only [retireLive]
  cases r.live with
  | none =>
    have blind : (fun retired : Bool => retired || (none : Option Nat) == some number) = id :=
      funext fun retired => Bool.or_false retired
    rw [blind, Option.map_id]
    rfl
  | some live => exact retired?_retire m live number

/-- Retiring queues retires those that are up, and leaves the others as they are. -/
theorem retired?_foldl_retireLive (m : Machine) (queues : List Registers) (number : Nat) :
    (queues.foldl retireLive m).retired? number =
      (m.retired? number).map (· || (queues.map (·.live)).contains (some number)) := by
  induction queues generalizing m with
  | nil =>
    have blind : (fun retired : Bool => retired || ([] : List (Option Nat)).contains (some number)) =
        id := funext fun retired => Bool.or_false retired
    rw [List.map_nil, blind, Option.map_id]
    rfl
  | cons r queues ih =>
    rw [List.foldl_cons, ih, retired?_retireLive, Option.map_map]
    congr 1
    funext retired
    rw [Function.comp, List.map_cons, List.contains_cons, Bool.or_assoc, Bool.beq_comm]

/-- A new virtqueue leaves the old ones as they are. -/
theorem retired?_append {m : Machine} {number : Nat} {retired : Bool}
    (known : m.retired? number = some retired) (q : Virtqueue) :
    ({ m with queues := m.queues ++ [q] } : Machine).retired? number = some retired := by
  obtain ⟨old, found, rfl⟩ := Option.map_eq_some_iff.mp known
  have there := (List.getElem?_eq_some_iff.mp found).1
  simp only [retired?]
  rw [List.getElem?_append_left there, found]
  rfl

theorem retired?_append_new (m : Machine) (q : Virtqueue) :
    ({ m with queues := m.queues ++ [q] } : Machine).retired? m.queues.length = some q.retired := by
  simp only [retired?]
  rw [List.getElem?_concat_length]
  rfl

end Machine

end VirtioMmio
