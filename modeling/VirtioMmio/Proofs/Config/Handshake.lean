import VirtioMmio.Proofs.Config.Progress
import VirtioMmio.Proofs.Queue.Programming

/-!
The handshake of a driver that follows the order of the bring-up: it announces itself, states its
features half by half, and settles them. Main result: `writeAll_handshake`. From an empty status on
none of its writes is refused, and what is settled in the end is what both sides wanted.
-/

namespace VirtioMmio

open Queue (Half)
open Transport (Register)

/-- The window through which a half of the features is written. -/
def Queue.Half.window : Half → UInt32
  | .low => 0
  | .high => 1

namespace Config

/-! ### The status of each stage -/

namespace Status

def greeted : Status := { acknowledge := true, driver := true }
def agreed : Status := { greeted with featuresOk := true }
def running : Status := { agreed with driverOk := true }

end Status

namespace State

def writeAll (s : State) (list : List (Register × UInt32)) : State :=
  list.foldl (fun s w => s.write w.2 w.1) s

theorem writeAll_append (s : State) (first second : List (Register × UInt32)) :
    s.writeAll (first ++ second) = (s.writeAll first).writeAll second :=
  List.foldl_append

/-- A status that is taken is settled. -/
theorem writeStatus_taken {s : State} {v : UInt32} {status : Status} (nonzero : v ≠ 0)
    (taken : (Status.ofBits? v).bind s.status.write? = some status) :
    s.writeStatus v = (.accepted (status.driverOk && !s.status.driverOk), s.settle status) := by
  simp only [writeStatus, if_neg nonzero, taken]
  rfl

/-! ### Features -/

/-- Writes of parts of the features, each after the window is moved to it. -/
def featureWrites (features : UInt64) (halves : List Half) : List (Register × UInt32) :=
  halves.flatMap fun half => [(.driverFeaturesWindow, half.window), (.driverFeatures, half.of features)]

theorem write_feature {s : State} (opened : s.featuresOpen = true) (half : Half) (v : UInt32) :
    (s.write half.window .driverFeaturesWindow).write v .driverFeatures =
      { s with
        acceptedWindow := half.window
        accepted := Queue.Registers.withHalf s.accepted half v } := by
  have opened' : (s.selectAccepted half.window).featuresOpen = true := opened
  simp only [write, writeFeatures, opened', Bool.not_true, Bool.false_eq_true, if_false]
  cases half <;> rfl

/-- A half that was written holds what the driver wanted, and the other one what it held before. -/
theorem writeAll_featureWrites (features : UInt64) (halves : List Half) {s : State}
    (opened : s.featuresOpen = true) :
    ∃ accepted window, s.writeAll (featureWrites features halves) =
        { s with accepted, acceptedWindow := window } ∧
      ∀ half : Half, half.of accepted =
        if half ∈ halves then half.of features else half.of s.accepted := by
  induction halves generalizing s with
  | nil => exact ⟨_, _, rfl, fun _ => (if_neg List.not_mem_nil).symm⟩
  | cons half halves ih =>
    -- The other halves are written over what this one leaves.
    obtain ⟨accepted, window, same, held⟩ := ih (s := { s with
      acceptedWindow := half.window
      accepted := Queue.Registers.withHalf s.accepted half (half.of features) }) opened
    refine ⟨accepted, window, ?_, ?_⟩
    · exact (congrArg (writeAll · _) (write_feature opened half _)).trans same
    · intro other
      rw [held, Half.of_withHalf]
      by_cases here : half = other
      · cases here
        simp
      · simp only [if_neg here, List.mem_cons, Ne.symm here, false_or]

/-! ### The whole handshake -/

/-- Writes that bring the negotiation from an empty status to features that are settled. -/
def handshake (features : UInt64) (halves : List Half) : List (Register × UInt32) :=
  [(.status, 1), (.status, 3)] ++ featureWrites features halves ++ [(.status, 11)]

theorem writeAll_greetings {s : State} (fresh : s.status = .empty) :
    s.writeAll [(.status, 1), (.status, 3)] = { s with status := .greeted } := by
  have acknowledged : (Status.ofBits? 1).bind s.status.write? = some { acknowledge := true } := by
    rw [fresh]
    decide
  have greeted : (Status.ofBits? 3).bind (s.settle { acknowledge := true }).status.write? =
      some .greeted := rfl
  simp only [writeAll, List.foldl_cons, List.foldl_nil, write,
    writeStatus_taken (by decide) acknowledged, writeStatus_taken (by decide) greeted]
  rfl

theorem writeAll_settles {s : State} (greeted : s.status = .greeted) :
    s.writeAll [(.status, 11)] =
      { s with status := .agreed, accepted := s.accepted &&& s.offered } := by
  have agreed : (Status.ofBits? 11).bind s.status.write? = some .agreed := by
    rw [greeted]
    decide
  simp only [writeAll, List.foldl_cons, List.foldl_nil, write,
    writeStatus_taken (by decide) agreed, settle, greeted]
  rfl

/-- Both halves of the features may be written in any order. -/
theorem writeAll_handshake {s : State} (fresh : s.status = .empty) (features : UInt64)
    {halves : List Half} (both : ∀ half, half ∈ halves) :
    ∃ window, s.writeAll (handshake features halves) =
      { s with
        status := .agreed
        accepted := features &&& s.offered
        acceptedWindow := window } := by
  have opened : ({ s with status := .greeted } : State).featuresOpen = true := rfl
  obtain ⟨accepted, window, stated, held⟩ := writeAll_featureWrites features halves opened
  have whole : accepted = features := by
    apply Half.eq_of_halves
    intro half
    rw [held, if_pos (both half)]
  refine ⟨window, ?_⟩
  rw [handshake, writeAll_append, writeAll_append, writeAll_greetings fresh, stated,
    writeAll_settles rfl, whole]

end State

end Config

end VirtioMmio
