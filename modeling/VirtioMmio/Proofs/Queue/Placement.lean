import VirtioMmio.Proofs.Queue.Rings

/-!
Which layouts are accepted. The test for rings that meet cuts the end of a ring to the largest
address. No aligned ring starts there, so the cut makes no difference, and the test is the one over
unbounded numbers: `meet_iff`. Main result: `new_accepts_disjoint`, with the first of `reasons` that
applies as the error of every other layout.
-/

namespace VirtioMmio.Vring.Layout

open Memory (InRange Separate separate_iff)
open Queue (Registers)

/-! ### First reasons -/

open Classical in
/-- The error of the first reason that applies, or `a` if none does. -/
noncomputable def judge {ε α : Type} (a : α) : List (Prop × ε) → Except ε α
  | [] => .ok a
  | (applies, e) :: later => if applies then .error e else judge a later

section Judge

variable {ε α : Type} {a b : α}

theorem judge_cons_of_applies {p : Prop} (applies : p) (e : ε) (later : List (Prop × ε)) :
    judge a ((p, e) :: later) = .error e := by
  rw [judge, if_pos applies]

theorem judge_cons_of_not {p : Prop} (passes : ¬ p) (e : ε) (later : List (Prop × ε)) :
    judge a ((p, e) :: later) = judge a later := by
  rw [judge, if_neg passes]

theorem judge_eq_ok_iff (reasons : List (Prop × ε)) :
    judge a reasons = .ok b ↔ b = a ∧ ∀ r ∈ reasons, ¬ r.1 := by
  induction reasons with
  | nil => simp [judge, eq_comm]
  | cons r later ih =>
    obtain ⟨p, e⟩ := r
    by_cases applies : p
    · rw [judge_cons_of_applies applies]
      simp [applies]
    · rw [judge_cons_of_not applies, ih]
      simp [applies]

theorem judge_eq_error_iff (reasons : List (Prop × ε)) (e : ε) :
    judge a reasons = .error e ↔
      ∃ before p after, reasons = before ++ (p, e) :: after ∧ p ∧ ∀ r ∈ before, ¬ r.1 := by
  -- The first reason decides if it applies; otherwise it is one of those before the one that does.
  induction reasons with
  | nil => simp [judge]
  | cons r later ih =>
    obtain ⟨p, e'⟩ := r
    by_cases applies : p
    · rw [judge_cons_of_applies applies]
      constructor
      · intro same
        cases same
        exact ⟨[], p, later, rfl, applies, by simp⟩
      · rintro ⟨before, p', after, split, applies', clear⟩
        cases before with
        | nil => cases split; rfl
        | cons first before =>
          cases split
          exact absurd applies (clear _ List.mem_cons_self)
    · rw [judge_cons_of_not applies, ih]
      constructor
      · rintro ⟨before, p', after, rfl, applies', clear⟩
        exact ⟨(p, e') :: before, p', after, rfl, applies', by simpa [applies] using clear⟩
      · rintro ⟨before, p', after, split, applies', clear⟩
        cases before with
        | nil => cases split; exact absurd applies' applies
        | cons first before =>
          cases split
          exact ⟨before, p', after, rfl, applies', fun r member => clear r (.tail _ member)⟩

/-- To look for the first element that a test finds is to judge by what the test finds. -/
theorem judge_find {ι : Type} (l : List ι) (test : ι → Bool) (error : ι → ε)
    (later : List (Prop × ε)) :
    judge a (l.map (fun i => (test i = true, error i)) ++ later) =
      match l.find? test with
      | some i => .error (error i)
      | none => judge a later := by
  induction l with
  | nil => rfl
  | cons i l ih =>
    rw [List.map_cons, List.cons_append, List.find?_cons]
    cases found : test i with
    | true => exact judge_cons_of_applies rfl _ _
    | false => rw [judge_cons_of_not Bool.false_ne_true, ih]

/-- Later reasons count only once the earlier ones are known not to apply. -/
theorem judge_append_congr {front back back' : List (Prop × ε)}
    (same : (∀ r ∈ front, ¬ r.1) → judge a back = judge a back') :
    judge a (front ++ back) = judge a (front ++ back') := by
  induction front with
  | nil => exact same (by simp)
  | cons r front ih =>
    obtain ⟨p, e⟩ := r
    by_cases applies : p
    · rw [List.cons_append, List.cons_append, judge_cons_of_applies applies,
        judge_cons_of_applies applies]
    · rw [List.cons_append, List.cons_append, judge_cons_of_not applies, judge_cons_of_not applies]
      exact ih fun clear => same (by simpa [applies] using clear)

end Judge

/-! ### Rings that meet -/

theorem isAligned_iff (l : Layout) (p : Part) :
    l.isAligned p = true ↔ p.alignment ∣ (l.addr p).toNat := by
  rw [isAligned, beq_iff_eq, Nat.dvd_iff_mod_eq_zero]

/-- No aligned ring starts at the largest address. -/
theorem lt_of_isAligned {l : Layout} {p : Part} (aligned : l.isAligned p = true) :
    (l.addr p).toNat < 2 ^ 64 - 1 := by
  have bound := (l.addr p).toNat_lt
  have multiple : (l.addr p).toNat % p.alignment = 0 := by simpa [isAligned] using aligned
  cases p <;> simp only [Part.alignment] at multiple <;> omega

theorem bytes_pos {size : UInt16} (some : 0 < size.toNat) (p : Part) : 0 < p.bytes size := by
  cases p <;> simp only [Part.bytes] <;> omega

theorem meet_iff {l : Layout} {p p' : Part} (some : 0 < l.size.toNat)
    (aligned : l.isAligned p = true) (aligned' : l.isAligned p' = true) :
    l.meet p p' = true ↔
      ¬ Separate (l.addr p) (p.bytes l.size) (l.addr p') (p'.bytes l.size) := by
  have below := lt_of_isAligned aligned
  have below' := lt_of_isAligned aligned'
  rw [separate_iff (bytes_pos some p) (bytes_pos some p')]
  simp only [meet, Bool.and_eq_true, decide_eq_true_eq]
  simp only [stop]
  omega

/-! ### Acceptance -/

/-- What speaks against a layout, in the order in which it counts. -/
def reasons (size max : UInt16) (desc avail used : UInt64) : List (Prop × QueueError) :=
  let n := size.toNat
  [(¬ ∃ k, n = 2 ^ k, .badSize size),
    (max.toNat < n, .tooLarge size max),
    (¬ 16 ∣ desc.toNat, .misaligned .descriptor desc),
    (¬ 16 ∣ avail.toNat, .misaligned .available avail),
    (¬ 4 ∣ used.toNat, .misaligned .used used),
    (¬ Separate desc (16 * n) avail (6 + 2 * n), .overlap .descriptor .available),
    (¬ Separate desc (16 * n) used (6 + 8 * n), .overlap .descriptor .used),
    (¬ Separate avail (6 + 2 * n) used (6 + 8 * n), .overlap .available .used)]

/-- The reasons that concern the size, and each ring for itself. -/
def ownReasons (l : Layout) (max : UInt16) : List (Prop × QueueError) :=
  (¬ ∃ k, l.size.toNat = 2 ^ k, .badSize l.size) ::
    (max.toNat < l.size.toNat, .tooLarge l.size max) ::
    Part.all.map fun p => (¬ p.alignment ∣ (l.addr p).toNat, .misaligned p (l.addr p))

/-- The check looks for rings that meet after all other reasons. -/
theorem new_eq_judge (size max : UInt16) (desc avail used : UInt64) :
    let l : Layout := ⟨size, desc, avail, used⟩
    Layout.new size max desc avail used =
      judge l (l.ownReasons max ++
        Part.pairs.map fun pair => (l.meet pair.1 pair.2 = true, .overlap pair.1 pair.2)) := by
  intro l
  have aligned (p : Part) : (¬ p.alignment ∣ (l.addr p).toNat) = ((!l.isAligned p) = true) := by
    rw [← isAligned_iff, Bool.not_eq_true', Bool.not_eq_true]
  rw [Layout.new, ownReasons, List.cons_append, List.cons_append]
  by_cases power : isPowerOfTwo size.toNat = true
  case neg =>
    rw [judge_cons_of_applies (mt (isPowerOfTwo_iff _).mpr power)]
    simp only [power, Bool.not_false, if_true, l]
  by_cases large : max < size
  case pos =>
    rw [judge_cons_of_not (not_not_intro ((isPowerOfTwo_iff _).mp power)),
      judge_cons_of_applies (UInt16.lt_iff_toNat_lt.mp large)]
    simp only [power, large, Bool.not_true, Bool.false_eq_true, if_false, if_true, l]
  rw [judge_cons_of_not (not_not_intro ((isPowerOfTwo_iff _).mp power)),
    judge_cons_of_not (mt UInt16.lt_iff_toNat_lt.mpr large)]
  -- What is left of the check is two searches, one for each kind of reason that follows.
  simp only [aligned, power, large, Bool.not_true, Bool.false_eq_true, if_false]
  rw [judge_find, ← List.append_nil (Part.pairs.map _), judge_find]
  cases Part.all.find? fun p => !l.isAligned p with
  | some p => rfl
  | none =>
    cases Part.pairs.find? fun pair => l.meet pair.1 pair.2 with
    | some pair => rfl
    | none => rfl

/-- The first of the reasons that applies decides. -/
theorem new_eq (size max : UInt16) (desc avail used : UInt64) :
    Layout.new size max desc avail used =
      judge ⟨size, desc, avail, used⟩ (reasons size max desc avail used) := by
  generalize whole : (⟨size, desc, avail, used⟩ : Layout) = l
  have parts : reasons size max desc avail used = l.ownReasons max ++ Part.pairs.map fun pair =>
      (¬ Separate (l.addr pair.1) (pair.1.bytes l.size) (l.addr pair.2) (pair.2.bytes l.size),
        .overlap pair.1 pair.2) := by
    subst whole
    rfl
  rw [new_eq_judge, parts, whole]
  refine judge_append_congr fun clear => congrArg (judge l) (List.map_congr_left fun pair _ => ?_)
  -- Rings are compared only where the size and every start have passed.
  have aligned (p : Part) : l.isAligned p = true := by
    have listed : (¬ p.alignment ∣ (l.addr p).toNat, QueueError.misaligned p (l.addr p)) ∈
        l.ownReasons max :=
      .tail _ (.tail _ (List.mem_map.mpr ⟨p, p.mem_all, rfl⟩))
    exact (isAligned_iff l p).mpr (not_not.mp (clear _ listed))
  have some : 0 < l.size.toNat := by
    obtain ⟨k, power⟩ := not_not.mp (clear _ List.mem_cons_self)
    exact power ▸ Nat.two_pow_pos k
  rw [meet_iff some (aligned _) (aligned _)]

/-- A layout is accepted exactly if its size is a power of two within the limit, its rings are
aligned, and no address belongs to two of them, be the addresses ones that exist or not. Every other
layout is refused with the first reason that applies. A ring that is also found backed ends at an
address that exists. -/
theorem new_accepts_disjoint (size max : UInt16) (desc avail used : UInt64) :
    (∀ l, Layout.new size max desc avail used = .ok l ↔
      l = ⟨size, desc, avail, used⟩ ∧
        (∃ k, size.toNat = 2 ^ k) ∧ 1 ≤ size.toNat ∧ size.toNat ≤ max.toNat ∧
        16 ∣ desc.toNat ∧ 16 ∣ avail.toNat ∧ 4 ∣ used.toNat ∧
        Separate desc (16 * size.toNat) avail (6 + 2 * size.toNat) ∧
        Separate desc (16 * size.toNat) used (6 + 8 * size.toNat) ∧
        Separate avail (6 + 2 * size.toNat) used (6 + 8 * size.toNat)) ∧
      (∀ e, Layout.new size max desc avail used = .error e ↔
        ∃ before p after, reasons size max desc avail used = before ++ (p, e) :: after ∧ p ∧
          ∀ r ∈ before, ¬ r.1) ∧
      ∀ (m m' : Machine) (r r' : Registers) (index : UInt16) (indirect : Bool), r.isUp = false →
        r.size = size → r.desc = desc → r.driver = avail → r.device = used →
        m.bringUp r index max indirect = .ok (r', m') →
        (∀ a, InRange desc (16 * size.toNat) a → a < 2 ^ 64) ∧
          (∀ a, InRange avail (6 + 2 * size.toNat) a → a < 2 ^ 64) ∧
          ∀ a, InRange used (6 + 8 * size.toNat) a → a < 2 ^ 64 := by
  refine ⟨fun l => ?_, fun e => ?_, ?_⟩
  · rw [new_eq, judge_eq_ok_iff]
    simp only [reasons, List.forall_mem_cons, not_not, List.not_mem_nil, false_implies,
      implies_true, and_true, Nat.not_lt]
    constructor
    · rintro ⟨rfl, ⟨k, power⟩, within, rest⟩
      exact ⟨rfl, ⟨k, power⟩, power ▸ Nat.two_pow_pos k, within, rest⟩
    · rintro ⟨rfl, power, _, within, rest⟩
      exact ⟨rfl, power, within, rest⟩
  · rw [new_eq, judge_eq_error_iff]
  · rintro m m' r r' index indirect down rfl rfl rfl rfl up
    -- The sums of the layout saturate; that they do not overflow comes from the rings being backed.
    obtain ⟨l, accepted, backed, _⟩ := Machine.bringUp_eq_ok down up
    have placed := placed_of_new accepted backed
    obtain ⟨rfl, _⟩ := new_eq_ok accepted
    have below (p : Part) (a : Nat) (inside : InRange _ _ a) : a < 2 ^ 64 :=
      Nat.lt_trans inside.2 (placed.ends p)
    exact ⟨below .descriptor, below .available, below .used⟩

example : Layout.new 4 256 0 0x100 0xfffffffffffffffc = .ok ⟨4, 0, 0x100, 0xfffffffffffffffc⟩ := rfl

/-! The last four used entries that there is room for: memory ends at the largest address, and the
used ring ends one byte before it. -/

def topmostRegisters : Registers where
  size := 4
  desc := 0xfffffffffffff000
  driver := 0xfffffffffffff100
  device := 0xffffffffffffffd8

def topmostMachine : Machine where
  ram := { regions := [⟨0xfffffffffffff000, 0xfff, .both⟩] }
  line := ⟨48, .nothing⟩

theorem topmost_below :
    (∃ r' m', topmostMachine.bringUp topmostRegisters 0 256 false = .ok (r', m')) ∧
      (∃ l, Layout.new 4 256 0xfffffffffffff000 0xfffffffffffff100 0xffffffffffffffd8 = .ok l) ∧
      ∀ a, InRange 0xffffffffffffffd8 (6 + 8 * (4 : UInt16).toNat) a → a < 2 ^ 64 := by
  obtain ⟨accepted, _, below⟩ :=
    new_accepts_disjoint 4 256 0xfffffffffffff000 0xfffffffffffff100 0xffffffffffffffd8
  have up : ∃ r' m', topmostMachine.bringUp topmostRegisters 0 256 false = .ok (r', m') :=
    ⟨_, _, rfl⟩
  refine ⟨up, ⟨_, (accepted _).mpr ⟨rfl, ⟨2, rfl⟩, ?_⟩⟩, ?_⟩
  · simp only [separate_iff, show 0 < 16 * (4 : UInt16).toNat by decide,
      show 0 < 6 + 2 * (4 : UInt16).toNat by decide, show 0 < 6 + 8 * (4 : UInt16).toNat by decide]
    decide
  · obtain ⟨r', m', up⟩ := up
    exact (below _ _ _ _ _ _ rfl rfl rfl rfl rfl up).2.2

end VirtioMmio.Vring.Layout
