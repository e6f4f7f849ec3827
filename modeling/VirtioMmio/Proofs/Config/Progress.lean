import VirtioMmio.Config.State
import VirtioMmio.Transport.Register

/-!
How the negotiation between driver and device moves. `State.write` is what a register write does to
it, whichever register is meant. Main results: `advances_write`, by which every write but a reset
only moves forward, and `sound_write`, by which no write breaks the order of the bring-up or lets a
feature through that was not offered.
-/

namespace VirtioMmio.Config

open Transport (Register)

/-! ### Bits of the status -/

namespace Status

theorem includes_iff (s t : Status) :
    s.includes t = true ↔
      (t.acknowledge = true → s.acknowledge = true) ∧ (t.driver = true → s.driver = true) ∧
      (t.driverOk = true → s.driverOk = true) ∧ (t.featuresOk = true → s.featuresOk = true) ∧
      (t.needsReset = true → s.needsReset = true) ∧ (t.failed = true → s.failed = true) := by
  have each (a b : Bool) : (a || !b) = true ↔ (b = true → a = true) := by
    cases a <;> cases b <;> decide
  simp only [includes, Bool.and_eq_true, each, and_assoc]

theorem includes_refl (s : Status) : s.includes s = true :=
  (includes_iff s s).mpr ⟨id, id, id, id, id, id⟩

theorem includes_trans {s t u : Status} (more : u.includes t = true)
    (less : t.includes s = true) : u.includes s = true := by
  rw [includes_iff] at *
  obtain ⟨a, b, c, d, e, f⟩ := more
  obtain ⟨a', b', c', d', e', f'⟩ := less
  exact ⟨a ∘ a', b ∘ b', c ∘ c', d ∘ d', e ∘ e', f ∘ f'⟩

theorem driverOk_of_includes {s t : Status} (more : s.includes t = true)
    (set : t.driverOk = true) : s.driverOk = true :=
  ((includes_iff s t).mp more).2.2.1 set

theorem featuresOk_of_includes {s t : Status} (more : s.includes t = true)
    (set : t.featuresOk = true) : s.featuresOk = true :=
  ((includes_iff s t).mp more).2.2.2.1 set

theorem failed_of_includes {s t : Status} (more : s.includes t = true)
    (set : t.failed = true) : s.failed = true :=
  ((includes_iff s t).mp more).2.2.2.2.2 set

/-- Each bit stands on the one before it. -/
theorem inOrder_iff (s : Status) :
    s.inOrder = true ↔
      (s.driver = true → s.acknowledge = true) ∧ (s.featuresOk = true → s.driver = true) ∧
      (s.driverOk = true → s.featuresOk = true) := by
  have each (a b : Bool) : (!a || b) = true ↔ (a = true → b = true) := by
    cases a <;> cases b <;> decide
  simp only [inOrder, Bool.and_eq_true, each, and_assoc]

theorem not_isEmpty_of_driverOk {s : Status} (set : s.driverOk = true) : s.isEmpty = false := by
  cases empty : s.isEmpty with
  | false => rfl
  | true =>
    have same : s = Status.empty := by simpa [isEmpty] using empty
    rw [same] at set
    cases set

end Status

/-! ### Writes -/

namespace State

/-- What a write to a register does to the negotiation. -/
def write (s : State) (v : UInt32) : Register → State
  | .offeredFeaturesWindow => s.selectOffered v
  | .driverFeatures => (s.writeFeatures v).2
  | .driverFeaturesWindow => s.selectAccepted v
  | .queueSelect => s.selectQueue v
  | .status => (s.writeStatus v).2
  | _ => s

/-- A status that the driver may write over another one: nothing is lost and no step is skipped,
the needs-reset bit is left to the device, and after a failure nothing is added any more. -/
structure Follows (old new : Status) : Prop where
  live : old.failed = false
  includes : new.includes old = true
  ordered : new.inOrder = true
  driverOnly : new.needsReset = false

/-- The negotiation once the driver has written a status that follows. -/
def settle (s : State) (status : Status) : State :=
  { s with
    status
    accepted := if status.featuresOk && !s.status.featuresOk then s.accepted &&& s.offered
      else s.accepted }

theorem writeStatus_zero (s : State) : s.writeStatus 0 = (.reset, s.reset) := rfl

/-- A status other than zero is either refused, with nothing changed, or it follows. -/
theorem writeStatus_nonzero (s : State) {v : UInt32} (nonzero : v ≠ 0) :
    s.writeStatus v = (.rejected, s) ∨
      ∃ status, Follows s.status status ∧
        s.writeStatus v = (.accepted (status.driverOk && !s.status.driverOk), s.settle status) := by
  simp only [writeStatus, nonzero, if_false]
  cases written : (Status.ofBits? v).bind s.status.write? with
  | none => exact .inl rfl
  | some status =>
    obtain ⟨asked, _, taken⟩ := Option.bind_eq_some_iff.mp written
    obtain ⟨rfl, live, includes, ordered⟩ := (s.status.write?_eq_some_iff asked status).mp taken
    exact .inr ⟨_, ⟨live, includes, ordered, rfl⟩, rfl⟩

theorem writeFeatures_closed (s : State) (v : UInt32) (closed : s.featuresOpen = false) :
    (s.writeFeatures v).2 = s := by
  simp [writeFeatures, closed]

theorem writeFeatures_eq (s : State) (v : UInt32) :
    ∃ accepted, (s.writeFeatures v).2 = { s with accepted } := by
  simp only [writeFeatures]
  split
  · exact ⟨_, rfl⟩
  · split
    · exact ⟨_, rfl⟩
    · split <;> exact ⟨_, rfl⟩

/-- No register but the status register holds the status. -/
theorem status_write (s : State) (v : UInt32) {r : Register} (other : r ≠ .status) :
    (s.write v r).status = s.status := by
  cases r with
  | driverFeatures =>
    obtain ⟨accepted, same⟩ := s.writeFeatures_eq v
    simp only [write, same]
  | status => exact absurd rfl other
  | _ => rfl

/-! ### Forward only -/

/-- A later state of the same negotiation, with no reset between the two. -/
structure Advances (s s' : State) : Prop where
  includes : s'.status.includes s.status = true
  stuck : s.status.failed = true → s'.status = s.status
  settled : s.status.featuresOk = true → s'.accepted = s.accepted
  offered : s'.offered = s.offered

namespace Advances

theorem refl (s : State) : Advances s s :=
  ⟨s.status.includes_refl, fun _ => rfl, fun _ => rfl, rfl⟩

theorem trans {s s' s'' : State} (first : Advances s s') (second : Advances s' s'') :
    Advances s s'' where
  includes := Status.includes_trans second.includes first.includes
  stuck failed := (second.stuck (Status.failed_of_includes first.includes failed)).trans
    (first.stuck failed)
  settled done := (second.settled (Status.featuresOk_of_includes first.includes done)).trans
    (first.settled done)
  offered := second.offered.trans first.offered

theorem negotiated {s s' : State} (advances : Advances s s')
    (settled : s.status.featuresOk = true) : s'.negotiated = s.negotiated := by
  simp only [State.negotiated, advances.settled settled, advances.offered]

/-- What does not touch status, features or offer moves nothing. -/
theorem of_same {s s' : State} (status : s'.status = s.status) (accepted : s'.accepted = s.accepted)
    (offered : s'.offered = s.offered) : Advances s s' := by
  refine ⟨?_, fun _ => status, fun _ => accepted, offered⟩
  rw [status]
  exact s.status.includes_refl

end Advances

/-- Settling the features drops what was not offered, so it agrees with what was agreed already. -/
theorem negotiated_settle (s : State) (status : Status) :
    (s.settle status).negotiated = s.negotiated := by
  simp only [negotiated, settle]
  split
  · rw [UInt64.and_assoc, UInt64.and_self]
  · rfl

theorem advances_settle {s : State} {status : Status} (follows : Follows s.status status) :
    Advances s (s.settle status) where
  includes := follows.includes
  stuck failed := by
    rw [follows.live] at failed
    cases failed
  settled done := by
    simp [settle, done]
  offered := rfl

theorem advances_write (s : State) (v : UInt32) (r : Register) (noReset : r = .status → v ≠ 0) :
    Advances s (s.write v r) := by
  cases r with
  | driverFeatures =>
    -- The features can be written only as long as they are open, and settled ones are not.
    by_cases opened : s.featuresOpen = true
    · obtain ⟨accepted, same⟩ := s.writeFeatures_eq v
      simp only [write, same]
      refine ⟨s.status.includes_refl, fun _ => rfl, fun settled => ?_, rfl⟩
      simp [featuresOpen, settled] at opened
    · simp only [write, s.writeFeatures_closed v (Bool.eq_false_iff.mpr opened)]
      exact .refl s
  | status =>
    simp only [write]
    rcases s.writeStatus_nonzero (noReset rfl) with same | ⟨status, follows, same⟩
    · rw [same]
      exact .refl s
    · rw [same]
      exact advances_settle follows
  | _ => exact .of_same rfl rfl rfl

/-! ### What always holds -/

/-- No step of the bring-up was skipped, the needs-reset bit is not stored, and settled features
are among the offered ones. -/
structure Sound (s : State) : Prop where
  ordered : s.status.inOrder = true
  driverOnly : s.status.needsReset = false
  offered : s.status.featuresOk = true → s.accepted &&& s.offered = s.accepted

/-- The features are settled before the driver is done. -/
theorem Sound.featuresOk {s : State} (sound : s.Sound) (running : s.status.driverOk = true) :
    s.status.featuresOk = true :=
  ((Status.inOrder_iff s.status).mp sound.ordered).2.2 running

theorem sound_new (offered : UInt64) (bytes : List UInt8) (writable : List Span) :
    (State.new offered bytes writable).Sound :=
  ⟨rfl, rfl, fun settled => nomatch settled⟩

theorem sound_reset (s : State) : s.reset.Sound :=
  ⟨rfl, rfl, fun settled => nomatch settled⟩

/-- Features that are settled now were settled before or are settled at this moment. -/
theorem sound_settle {s : State} (sound : s.Sound) {status : Status}
    (follows : Follows s.status status) : (s.settle status).Sound where
  ordered := follows.ordered
  driverOnly := follows.driverOnly
  offered settled := by
    change status.featuresOk = true at settled
    by_cases before : s.status.featuresOk = true
    · simpa [settle, before] using sound.offered before
    · simp [settle, settled, before, UInt64.and_assoc]

theorem sound_write {s : State} (sound : s.Sound) (v : UInt32) (r : Register) :
    (s.write v r).Sound := by
  by_cases zero : r = .status ∧ v = 0
  · obtain ⟨rfl, rfl⟩ := zero
    exact sound_reset s
  · have advances := s.advances_write v r fun status none => zero ⟨status, none⟩
    cases r with
    | status =>
      simp only [write]
      rcases s.writeStatus_nonzero fun none => zero ⟨rfl, none⟩ with same | ⟨status, follows, same⟩
      · rw [same]
        exact sound
      · rw [same]
        exact sound_settle sound follows
    | driverFeatures =>
      have status := s.status_write v (r := .driverFeatures) (by decide)
      refine ⟨?_, ?_, ?_⟩
      · rw [status]
        exact sound.ordered
      · rw [status]
        exact sound.driverOnly
      · intro settled
        rw [status] at settled
        rw [advances.settled settled, advances.offered]
        exact sound.offered settled
    | _ => exact ⟨sound.ordered, sound.driverOnly, sound.offered⟩

end State

end VirtioMmio.Config
