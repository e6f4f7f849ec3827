import Mathlib.Data.List.Induction
import VirtioMmio.Interrupt.Line

/-!
The history of an interrupt line: what pends after any operations, and what its controller was told
meanwhile. Main results: `has_run`, by which a cause pends exactly if nothing cleared it since it
was raised last, and `Tells.run`, by which the calls on the controller alternate and their number
tells the level of the line.

One operation makes a call exactly if it changes the level (`calls_operate`); the rest is induction
on the operations from the last one back.
-/

namespace VirtioMmio.Interrupt

inductive Cause where
  | ring
  | config
  deriving DecidableEq, Repr

def Causes.has (causes : Causes) : Cause → Bool
  | .ring => causes.ring
  | .config => causes.config

theorem Causes.isEmpty_eq_false_iff (causes : Causes) :
    causes.isEmpty = false ↔ ∃ cause, causes.has cause = true := by
  rw [isEmpty, ← Bool.not_or, Bool.not_eq_false', Bool.or_eq_true]
  constructor
  · rintro (ring | config)
    · exact ⟨.ring, ring⟩
    · exact ⟨.config, config⟩
  · rintro ⟨cause, has⟩
    cases cause with
    | ring => exact .inl has
    | config => exact .inr has

namespace Line

/-- One thing that is done to a line. -/
inductive Operation where
  | raise (causes : Causes)
  | clear (causes : Causes)
  | lower
  deriving DecidableEq, Repr

namespace Operation

/-- The operation makes a cause pending. -/
def raises : Operation → Cause → Bool
  | .raise causes, cause => causes.has cause
  | .clear _, _ | .lower, _ => false

/-- The operation clears a cause. -/
def clears : Operation → Cause → Bool
  | .raise _, _ => false
  | .clear causes, cause => causes.has cause
  | .lower, _ => true

end Operation

def operate (l : Line) : Operation → Line × List LineCall
  | .raise causes => l.raise causes
  | .clear causes => l.clear causes
  | .lower => l.lower

/-- The line after some operations, and the calls that they took. -/
def run (l : Line) : List Operation → Line × List LineCall
  | [] => (l, [])
  | operation :: later =>
    let (l, calls) := l.operate operation
    let (l, more) := l.run later
    (l, calls ++ more)

theorem run_append (l : Line) (first second : List Operation) :
    l.run (first ++ second) =
      (((l.run first).1.run second).1, (l.run first).2 ++ ((l.run first).1.run second).2) := by
  induction first generalizing l with
  | nil => rfl
  | cons operation first ih =>
    simp only [List.cons_append, run, ih, List.append_assoc]

theorem run_singleton (l : Line) (operation : Operation) :
    l.run [operation] = l.operate operation := by
  simp only [run, List.append_nil]

/-! ### One operation -/

theorem intid_operate (l : Line) (operation : Operation) :
    (l.operate operation).1.intid = l.intid := by
  cases operation with
  | raise causes =>
    simp only [operate, raise]
    split <;> rfl
  | clear causes => rfl
  | lower => rfl

theorem intid_run (l : Line) (operations : List Operation) :
    (l.run operations).1.intid = l.intid := by
  induction operations generalizing l with
  | nil => rfl
  | cons operation later ih => exact (ih _).trans (intid_operate l operation)

theorem has_operate (l : Line) (operation : Operation) (cause : Cause) :
    (l.operate operation).1.pending.has cause =
      (operation.raises cause || l.pending.has cause && !operation.clears cause) := by
  cases operation with
  | raise causes =>
    rw [operate, pending_raise]
    cases cause <;>
      simp [Causes.has, Causes.union, Operation.raises, Operation.clears, Bool.or_comm]
  | clear causes =>
    rw [operate, pending_clear]
    cases cause <;> simp [Causes.has, Causes.without, Operation.raises, Operation.clears]
  | lower =>
    rw [operate, lower, pending_clear]
    cases cause <;>
      simp [Causes.has, Causes.without, Causes.all, Operation.raises, Operation.clears]

/-- What a controller is told when the level of a line changes from one value to another. -/
def edge (intid : UInt32) (before after : Bool) : List LineCall :=
  if before = after then [] else if after then [.raise intid] else [.lower intid]

/-- An operation makes a call exactly if it changes the level. -/
theorem calls_operate (l : Line) (operation : Operation) :
    (l.operate operation).2 = edge l.intid l.isPending (l.operate operation).1.isPending := by
  have cleared (causes : Causes) :
      (l.clear causes).2 = edge l.intid l.isPending (l.clear causes).1.isPending := by
    -- What is left after clearing was pending before, so the line is never raised by it.
    obtain ⟨intid, ring, config⟩ := l
    obtain ⟨a, b⟩ := causes
    cases ring <;> cases config <;> cases a <;> cases b <;> rfl
  cases operation with
  | raise causes =>
    obtain ⟨intid, ring, config⟩ := l
    obtain ⟨a, b⟩ := causes
    cases ring <;> cases config <;> cases a <;> cases b <;> rfl
  | clear causes => exact cleared causes
  | lower => exact cleared .all

/-! ### What pends -/

/-- Some operation raised a cause, and none after it cleared the cause. -/
def Standing (operations : List Operation) (cause : Cause) : Prop :=
  ∃ before operation after, operations = before ++ operation :: after ∧
    operation.raises cause = true ∧ ∀ later ∈ after, later.clears cause = false

theorem not_standing_nil (cause : Cause) : ¬ Standing [] cause := by
  rintro ⟨before, operation, after, split, _⟩
  cases before <;> cases split

theorem standing_concat (operations : List Operation) (operation : Operation) (cause : Cause) :
    Standing (operations ++ [operation]) cause ↔
      operation.raises cause = true ∨
        Standing operations cause ∧ operation.clears cause = false := by
  constructor
  · rintro ⟨before, raising, after, split, raised, kept⟩
    rcases List.eq_nil_or_concat after with rfl | ⟨front, last, rfl⟩
    · -- The cause was raised by the last operation of all.
      obtain ⟨-, same⟩ := List.append_inj' split rfl
      cases same
      exact .inl raised
    · rw [List.concat_eq_append, ← List.cons_append, ← List.append_assoc] at split
      obtain ⟨rfl, same⟩ := List.append_inj' split rfl
      cases same
      rw [List.concat_eq_append] at kept
      refine .inr ⟨⟨before, raising, front, rfl, raised, ?_⟩, ?_⟩
      · intro later member
        exact kept later (List.mem_append_left _ member)
      · exact kept operation (List.mem_append_right _ List.mem_cons_self)
  · rintro (raised | ⟨⟨before, raising, after, rfl, raised, kept⟩, spared⟩)
    · exact ⟨operations, operation, [], rfl, raised, nofun⟩
    · refine ⟨before, raising, after ++ [operation], by simp, raised, ?_⟩
      intro later member
      rcases List.mem_append.mp member with old | new
      · exact kept later old
      · rw [List.mem_singleton.mp new]
        exact spared

/-- On a line on which nothing pended at first, a cause pends exactly if it was raised and not
cleared since. -/
theorem has_run {l : Line} (idle : l.pending = .nothing) (operations : List Operation)
    (cause : Cause) : (l.run operations).1.pending.has cause = true ↔ Standing operations cause := by
  induction operations using List.reverseRecOn with
  | nil =>
    have none : l.pending.has cause = false := by
      rw [idle]
      cases cause <;> rfl
    simp [run, none, not_standing_nil]
  | append_singleton operations operation ih =>
    rw [run_append, run_singleton, standing_concat, ← ih, has_operate]
    simp [Bool.or_eq_true, Bool.and_eq_true]

/-! ### What the controller is told -/

/-- Calls on a controller that alternate, the first one raising the line. -/
def Alternates (intid : UInt32) (calls : List LineCall) : Prop :=
  ∀ n call, calls[n]? = some call → call = if n % 2 = 0 then .raise intid else .lower intid

/-- One more call alternates with the others if it fits their number. -/
theorem Alternates.concat {intid : UInt32} {calls : List LineCall} {call : LineCall}
    (alternates : Alternates intid calls)
    (fits : call = if calls.length % 2 = 0 then .raise intid else .lower intid) :
    Alternates intid (calls ++ [call]) := by
  intro n told listed
  rcases Nat.lt_trichotomy n calls.length with old | rfl | beyond
  · rw [List.getElem?_append_left old] at listed
    exact alternates n told listed
  · rw [List.getElem?_concat_length] at listed
    rw [← Option.some.inj listed]
    exact fits
  · rw [List.getElem?_eq_none (by simp; omega)] at listed
    cases listed

/-- Calls that fit the level of a line: they alternate, and an odd number of them left it raised. -/
structure Tells (calls : List LineCall) (l : Line) : Prop where
  alternates : Alternates l.intid calls
  parity : calls.length % 2 = if l.isPending then 1 else 0

namespace Tells

variable {calls : List LineCall} {l l' : Line}

theorem of_idle (idle : l.pending = .nothing) : Tells [] l where
  alternates _ _ none := nomatch none
  parity := by
    rw [isPending, idle]
    rfl

theorem edge (tells : Tells calls l) (same : l'.intid = l.intid) :
    Tells (calls ++ edge l.intid l.isPending l'.isPending) l' := by
  unfold Line.edge
  split
  next level =>
    rw [List.append_nil]
    exact ⟨same ▸ tells.alternates, level ▸ tells.parity⟩
  next change =>
    have parity := tells.parity
    cases before : l.isPending <;> cases after : l'.isPending <;>
      simp only [before, after, not_true_eq_false] at change
    · have even : calls.length % 2 = 0 := by simpa [before] using parity
      refine ⟨same ▸ tells.alternates.concat (if_pos even).symm, ?_⟩
      rw [List.length_append, after, if_pos rfl, if_pos rfl, List.length_singleton]
      omega
    · have odd : calls.length % 2 = 1 := by simpa [before] using parity
      refine ⟨same ▸ tells.alternates.concat (if_neg (by omega)).symm, ?_⟩
      rw [List.length_append, after, if_neg Bool.false_ne_true, if_neg Bool.false_ne_true,
        List.length_singleton]
      omega

theorem run (tells : Tells calls l) (operations : List Operation) :
    Tells (calls ++ (l.run operations).2) (l.run operations).1 := by
  induction operations using List.reverseRecOn with
  | nil => simpa [Line.run] using tells
  | append_singleton operations operation ih =>
    rw [run_append, run_singleton, ← List.append_assoc, calls_operate]
    exact ih.edge (intid_operate _ _)

/-- The last call on the controller tells the level. -/
theorem getLast? (tells : Tells calls l) :
    calls.getLast? = some (.raise l.intid) ↔ l.isPending = true := by
  have parity := tells.parity
  rw [List.getLast?_eq_getElem?]
  cases level : l.isPending with
  | true =>
    have odd : calls.length % 2 = 1 := by simpa [level] using parity
    have inside : calls.length - 1 < calls.length := by omega
    have even : (calls.length - 1) % 2 = 0 := by omega
    have listed := List.getElem?_eq_getElem inside
    have call := tells.alternates _ _ listed
    rw [if_pos even] at call
    rw [listed, call]
    simp
  | false =>
    have even : calls.length % 2 = 0 := by simpa [level] using parity
    simp only [Bool.false_eq_true, iff_false]
    intro listed
    have call := tells.alternates _ _ listed
    have inside := (List.getElem?_eq_some_iff.mp listed).1
    rw [if_neg (by omega)] at call
    cases call

end Tells

end Line

end VirtioMmio.Interrupt
