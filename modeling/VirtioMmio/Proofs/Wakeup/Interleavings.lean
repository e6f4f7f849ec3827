import VirtioMmio.Proofs.Wakeup.Threads

/-!
What a semaphore and a doorbell promise to any number of threads, however their steps fall. Main
result: `no_wakeup_lost`. The queues and the permits of a doorbell are not updated together, so what
holds between the two steps of a ring or of a wait is part of the invariant: a thread that stands
between its steps takes the place of a permit.
-/

namespace VirtioMmio.Wakeup

variable {h earlier later : List Event} {w w' : World} {thread : Nat} {act : Act} {answer : Answer}

/-! ### Permits -/

/-- How often something was done at a gate: permits posted, permits taken, or shutdowns. -/
def tally (gate : Gate) (effect : Effect) (h : List Event) : Nat :=
  h.countP fun e => e.effect? gate = some effect

theorem tally_cons (gate : Gate) (effect : Effect) (e : Event) (h : List Event) :
    tally gate effect (e :: h) =
      tally gate effect h + if e.effect? gate = some effect then 1 else 0 := by
  simp [tally, List.countP_cons]

namespace History

/-- A semaphore is shut down from its first shutdown on. -/
theorem isShutDown_iff (history : History h w) (gate : Gate) :
    (w.gate gate).isShutDown = true ↔ 0 < tally gate .shutdown h := by
  induction history with
  | start => cases gate <;> simp [World.gate, tally]
  | @next earlier w w' e history step ih =>
    rw [tally_cons]
    have changes := step.changes gate
    generalize e.effect? gate = effect at changes ⊢
    generalize w'.gate gate = s' at changes ⊢
    cases changes with
    | signal =>
      unfold Semaphore.signal
      split <;> simpa using ih
    | take taken =>
      obtain ⟨-, -, rfl⟩ := Semaphore.take_eq_ok_true.mp taken
      simpa using ih
    | shutdown => simp [Semaphore.shutdown]
    | nothing => simpa using ih

theorem isShutDown_eq_false (history : History h w) (gate : Gate)
    (running : tally gate .shutdown h = 0) : (w.gate gate).isShutDown = false := by
  rw [← Bool.not_eq_true, history.isShutDown_iff]
  omega

/-- Before a shutdown, what was posted and not taken is what is left. -/
theorem permits_add (history : History h w) (gate : Gate) (few : tally gate .signal h < 2 ^ 64)
    (running : tally gate .shutdown h = 0) :
    (w.gate gate).permits.toNat + tally gate .take h = tally gate .signal h := by
  induction history with
  | start => cases gate <;> rfl
  | @next earlier w w' e history step ih =>
    rw [tally_cons] at few running
    rw [tally_cons, tally_cons]
    have before := ih (by omega) (by omega)
    have open_ := history.isShutDown_eq_false gate (by omega)
    have changes := step.changes gate
    generalize e.effect? gate = effect at changes few running ⊢
    generalize w'.gate gate = s' at changes ⊢
    cases changes with
    | signal =>
      rw [if_pos rfl] at few
      have more := Semaphore.toNat_signal open_ (by omega)
      simp only [reduceCtorEq, Option.some.injEq, if_true, if_false]
      omega
    | take taken =>
      have less := Semaphore.toNat_take taken
      simp only [reduceCtorEq, Option.some.injEq, if_true, if_false]
      omega
    | shutdown =>
      rw [if_pos rfl] at running
      omega
    | nothing => simpa using before

end History

/-! ### Queues -/

/-- Some event noted a queue in the set. -/
def Marked (h : List Event) (q : Nat) : Prop :=
  ∃ e ∈ h, e.act.Marks q

/-- The events after the last time that the set was collected. -/
def sinceCollected (h : List Event) : List Event :=
  h.takeWhile (·.act ≠ .collect)

theorem sinceCollected_cons (e : Event) (h : List Event) :
    sinceCollected (e :: h) = if e.act = .collect then [] else e :: sinceCollected h := by
  by_cases collects : e.act = .collect <;> simp [sinceCollected, collects]

/-- The sets that waits returned. -/
def returned (h : List Event) : List Queue.Mask :=
  h.filterMap (·.answer.mask?)

namespace History

/-- The set holds the queues that were noted since it was collected. -/
theorem pending_iff (history : History h w) (q : Nat) :
    w.doorbell.pending.contains q = true ↔ Marked (sinceCollected h) q := by
  induction history with
  | start => simp [sinceCollected, Marked, Queue.Mask.contains, Queue.Mask.empty]
  | @next earlier w w' e history step ih =>
    rw [step.pending_eq, Doorbell.contains_pendingAfter, ih, sinceCollected_cons]
    by_cases collects : e.act = .collect <;> simp [collects, Marked]

/-- Every queue that was noted is in the set or in one that was returned. -/
theorem returned_or_pending_iff (history : History h w) (q : Nat) :
    (∃ mask ∈ returned h, mask.contains q = true) ∨ w.doorbell.pending.contains q = true ↔
      Marked h q := by
  induction history with
  | start => simp [returned, Marked, Queue.Mask.contains, Queue.Mask.empty]
  | @next earlier w w' e history step ih =>
    have answer := step.mask?_answer
    have marked : Marked (e :: earlier) q ↔ e.act.Marks q ∨ Marked earlier q := by simp [Marked]
    rw [step.pending_eq, Doorbell.contains_pendingAfter, marked, ← ih]
    by_cases collects : e.act = .collect
    · rw [if_pos collects] at answer
      simp [returned, answer, collects, Act.Marks, or_comm]
    · rw [if_neg collects] at answer
      simp [returned, answer, collects, or_left_comm]

end History

/-! ### Wakeups -/

namespace World

/-- Someone is going to collect a set that is not empty: there is a permit for it, or a thread that
will post one, or one that has taken one. -/
def Heard (w : World) : Prop :=
  w.doorbell.pending.isEmpty = false →
    0 < w.doorbell.semaphore.permits ∨ ∃ t, w.phase t = .ringing ∨ w.phase t = .collecting

/-- A thread that is not between two steps of the doorbell may change its phase. -/
theorem Heard.enter (heard : w.Heard) (phase : Phase)
    (apart : w.phase thread ≠ .ringing ∧ w.phase thread ≠ .collecting) :
    (w.enter thread phase).Heard := by
  intro waiting
  refine (heard waiting).imp_right ?_
  rintro ⟨t, busy⟩
  have other : t ≠ thread := by
    rintro rfl
    exact busy.elim apart.1 apart.2
  refine ⟨t, ?_⟩
  rw [phase_enter_of_ne w phase other]
  exact busy

theorem Ready.apart {gate : Gate} {wait : Wait} (ready : w.Ready thread gate wait) :
    w.phase thread ≠ .ringing ∧ w.phase thread ≠ .collecting := by
  rcases ready.free with free | free <;> rw [free] <;> exact ⟨nofun, nofun⟩

end World

/-- As long as a posted wakeup adds a permit, no step leaves queues behind that no one collects. -/
theorem Step.heard (step : Step w thread act answer w') (heard : w.Heard)
    (room : act = .post → 0 < w.doorbell.semaphore.signal.permits) : w'.Heard := by
  cases step with
  | signal => exact heard
  | @took gate wait w' ready taken =>
    obtain ⟨s, attempt, rfl⟩ := World.take_eq_ok taken
    cases gate with
    | semaphore =>
      have same : (w.put s .semaphore).Heard := heard
      exact same.enter _ ready.apart
    | doorbell =>
      exact fun _ => .inr ⟨thread, .inr (World.phase_enter_self _ _ _)⟩
  | missed ready taken =>
    cases World.eq_of_take_false taken
    exact heard.enter _ ready.apart
  | parked ready taken =>
    cases World.eq_of_take_false taken
    exact heard.enter _ ready.apart
  | cancelled ready => exact heard.enter _ ready.apart
  | shutdown gate => cases gate <;> exact heard
  | mark queue => exact fun _ => .inr ⟨thread, .inl (World.phase_enter_self _ _ _)⟩
  | post => exact fun _ => .inl (room rfl)
  | collect => exact nofun

/-- An attempt at a gate that was shut down is answered, and by a cancellation. -/
theorem World.Ready.cancelled {gate : Gate} {wait : Wait} (ready : w.Ready thread gate wait)
    (closed : (w.gate gate).isShutDown = true) :
    Step w thread (.attempt gate wait) (.cancelled .cancelled) (w.enter thread .idle) :=
  .cancelled ready (World.take_eq_error_iff.mpr closed)

theorem Step.answer_of_isShutDown {gate : Gate} {wait : Wait}
    (step : Step w thread (.attempt gate wait) answer w')
    (closed : (w.gate gate).isShutDown = true) : answer = .cancelled .cancelled := by
  have refused : w.take gate = .error .cancelled := World.take_eq_error_iff.mpr closed
  cases step with
  | cancelled => rfl
  | took _ taken => cases refused.symm.trans taken
  | missed _ taken => cases refused.symm.trans taken
  | parked _ taken => cases refused.symm.trans taken

namespace History

theorem heard (history : History h w) (few : tally .doorbell .signal h < 2 ^ 64)
    (running : tally .doorbell .shutdown h = 0) : w.Heard := by
  induction history with
  | start => exact nofun
  | @next earlier w w' e history step ih =>
    rw [tally_cons] at few running
    refine step.heard (ih (by omega) (by omega)) fun posts => ?_
    have counted := history.permits_add .doorbell (by omega) (by omega)
    have open_ := history.isShutDown_eq_false .doorbell (by omega)
    have effect : e.effect? .doorbell = some .signal := by
      unfold Event.effect?
      rw [posts]
      rfl
    rw [if_pos effect] at few
    have more := Semaphore.toNat_signal open_ (by omega)
    change 0 < (w.gate .doorbell).signal.permits
    rw [UInt64.lt_iff_toNat_lt, more]
    exact Nat.succ_pos _

/-- What came earlier is a history of its own, and the next event a step from where it ends. -/
theorem split {e : Event} (history : History (later ++ e :: earlier) w) :
    ∃ w₁ w₂, History earlier w₁ ∧ Step w₁ e.thread e.act e.answer w₂ := by
  induction later generalizing w with
  | nil =>
    cases history with
    | next history step => exact ⟨_, _, history, step⟩
  | cons last later ih =>
    cases history with
    | next history _ => exact ih history

end History

/-- Nothing that was signalled or rung is lost, whatever threads there are and however their steps
fall. Until a gate is shut down, each permit posted there is taken once or still there, if there are
fewer than 2^64. Until the doorbell is shut down, a set of queues that is not empty has a permit, or
a thread that stands between its two steps. The sets returned and the one that is left hold exactly
the queues that were noted, and each set returned those noted since the one before. After a shutdown
every wait is cancelled as soon as it comes to an attempt, whatever permits are left. -/
theorem no_wakeup_lost (history : History h w) :
    (∀ gate, tally gate .signal h < 2 ^ 64 → tally gate .shutdown h = 0 →
      tally gate .take h ≤ tally gate .signal h ∧
        (w.gate gate).permits.toNat = tally gate .signal h - tally gate .take h) ∧
      (tally .doorbell .signal h < 2 ^ 64 → tally .doorbell .shutdown h = 0 →
        w.doorbell.pending.isEmpty = false →
          0 < w.doorbell.semaphore.permits ∨
            ∃ t, w.phase t = .ringing ∨ w.phase t = .collecting) ∧
      (∀ q, (∃ mask ∈ returned h, mask.contains q = true) ∨
          w.doorbell.pending.contains q = true ↔ Marked h q) ∧
      (∀ later e earlier mask, h = later ++ e :: earlier → e.answer = .collected mask →
        ∀ q, mask.contains q = true ↔ Marked (sinceCollected earlier) q) ∧
      (∀ later e earlier gate wait, h = later ++ e :: earlier → e.act = .attempt gate wait →
        0 < tally gate .shutdown earlier → e.answer = .cancelled .cancelled) ∧
      ∀ gate, 0 < tally gate .shutdown h → ∀ thread wait, w.Ready thread gate wait →
        Step w thread (.attempt gate wait) (.cancelled .cancelled) (w.enter thread .idle) := by
  refine ⟨?_, history.heard, history.returned_or_pending_iff, ?_, ?_, ?_⟩
  · intro gate few running
    have counted := history.permits_add gate few running
    exact ⟨by omega, by omega⟩
  -- The world before an event is the one that the earlier events led to.
  · rintro later ⟨thread, act, answer⟩ earlier mask rfl rfl q
    obtain ⟨w₁, w₂, before, step⟩ := history.split
    have collected := step.mask?_answer
    split at collected
    · rw [← before.pending_iff, Option.some.inj collected]
    · cases collected
  · rintro later ⟨thread, act, answer⟩ earlier gate wait rfl rfl shut
    obtain ⟨w₁, w₂, before, step⟩ := history.split
    exact step.answer_of_isShutDown ((before.isShutDown_iff gate).mpr shut)
  · intro gate shut thread wait ready
    exact ready.cancelled ((history.isShutDown_iff gate).mpr shut)

/-! Two rings cross: the first wait collects both queues, and the second one nothing. A third ring
has no bit; its permit is left over when the doorbell is shut down, and a thread that parked at the
very beginning is cancelled all the same. The latest event comes first. -/

def crossedRings : List Event :=
  [⟨0, .post, .done⟩, ⟨0, .mark 64, .done⟩, ⟨2, .collect, .collected ⟨0⟩⟩,
    ⟨2, .attempt .doorbell .bounded, .took⟩, ⟨2, .collect, .collected ⟨0x28⟩⟩, ⟨0, .post, .done⟩,
    ⟨2, .attempt .doorbell .block, .took⟩, ⟨1, .post, .done⟩, ⟨1, .mark 5, .done⟩,
    ⟨0, .mark 3, .done⟩, ⟨3, .attempt .doorbell .block, .parked⟩]

theorem history_crossedRings :
    ∃ w, History crossedRings w ∧ w.phase 0 = .idle ∧ w.phase 3 = .parked .doorbell .block :=
  ⟨_, .next (.next (.next (.next (.next (.next (.next (.next (.next (.next (.next .start
    (.parked ⟨rfl, .inl rfl⟩ rfl nofun)) (.mark 3 rfl)) (.mark 5 rfl)) (.post rfl))
    (.took ⟨rfl, .inl rfl⟩ rfl)) (.post rfl)) (.collect rfl)) (.took ⟨rfl, .inl rfl⟩ rfl))
    (.collect rfl)) (.mark 64 rfl)) (.post rfl), rfl, rfl⟩

theorem crossedRings_collected :
    ∃ w, History crossedRings w ∧ (w.gate .doorbell).permits.toNat = 1 ∧
      (∀ q, (⟨0x28⟩ : Queue.Mask).contains q = true ↔ Marked (crossedRings.drop 5) q) ∧
      Step (w.shutdown .doorbell) 3 (.attempt .doorbell .block) (.cancelled .cancelled)
        ((w.shutdown .doorbell).enter 3 .idle) := by
  obtain ⟨w, history, idle, parked⟩ := history_crossedRings
  have closed := history.next (e := ⟨0, .shutdown .doorbell, .done⟩) (.shutdown .doorbell idle)
  obtain ⟨counted, -, -, collected, -, -⟩ := no_wakeup_lost history
  obtain ⟨-, -, -, -, -, cancelled⟩ := no_wakeup_lost closed
  refine ⟨w, history, (counted .doorbell (by decide) (by decide)).2, ?_, ?_⟩
  · exact collected (crossedRings.take 4) ⟨2, .collect, .collected ⟨0x28⟩⟩ (crossedRings.drop 5) _
      rfl rfl
  · exact cancelled .doorbell (by decide) 3 .block ⟨rfl, .inr parked⟩

end VirtioMmio.Wakeup
