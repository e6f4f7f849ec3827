import VirtioMmio.Proofs.Memory.Regions

/-!
The order in which regions were added. Whether they can be added does not depend on it, and neither
does where an access finds its region: a range that is not empty lies in one region at most. An
empty range at the border of two regions lies in both, and there the one that was added first
decides.
Main results: `ofRegions_perm` and `window_perm_iff`.
-/

namespace VirtioMmio.Memory.Ram

/-! ### Adding regions -/

/-- Guest RAM with some regions, added one after another. -/
def ofRegions (regions : List Region) : Except MemoryError Ram :=
  regions.foldlM (fun ram r => ram.add r.base r.len r.rights) empty

/-- Nothing speaks against the region but other regions. -/
def Addable (r : Region) : Prop :=
  0 < r.len ∧ r.stop < 2 ^ 64 ∧ r.len ≤ maxRegion

theorem foldlM_add_eq_ok_iff (ram ram' : Ram) (regions : List Region) :
    regions.foldlM (fun ram r => ram.add r.base r.len r.rights) ram = .ok ram' ↔
      (∀ r ∈ regions, Addable r) ∧ (∀ r ∈ ram.regions, ∀ s ∈ regions, r.Apart s) ∧
        regions.Pairwise Region.Apart ∧ ram' = { ram with regions := ram.regions ++ regions } := by
  induction regions generalizing ram with
  | nil => simp [pure, Except.pure, eq_comm]
  | cons s regions ih =>
    -- The first region meets what was there before, and the later ones meet it too.
    have first (grown : Ram) := add_eq_ok_iff ram grown s.base s.len s.rights
    rw [List.foldlM_cons]
    constructor
    · intro done
      cases added : ram.add s.base s.len s.rights with
      | error e =>
        rw [added] at done
        cases done
      | ok grown =>
        obtain ⟨addable, clear, rfl⟩ := (first grown).mp added
        rw [added] at done
        obtain ⟨others, clear', apart, rfl⟩ := (ih _).mp done
        refine ⟨List.forall_mem_cons.mpr ⟨addable, others⟩, fun r old => ?_,
          List.pairwise_cons.mpr ⟨?_, apart⟩, by simp⟩
        · exact List.forall_mem_cons.mpr
            ⟨clear r old, clear' r (List.mem_append_left _ old)⟩
        · exact clear' s (List.mem_append_right _ (List.mem_singleton_self _))
    · rintro ⟨addable, clear, apart, rfl⟩
      obtain ⟨addable, others⟩ := List.forall_mem_cons.mp addable
      obtain ⟨beside, apart⟩ := List.pairwise_cons.mp apart
      rw [(first _).mpr ⟨addable, fun r old => clear r old s List.mem_cons_self, rfl⟩]
      refine (ih _).mpr ⟨others, ?_, apart, by simp⟩
      intro r member
      rcases List.mem_append.mp member with old | new
      · exact fun t later => clear r old t (.tail _ later)
      · rw [List.mem_singleton.mp new]
        exact beside

theorem ofRegions_eq_ok_iff (regions : List Region) (ram : Ram) :
    ofRegions regions = .ok ram ↔
      (∀ r ∈ regions, Addable r) ∧ regions.Pairwise Region.Apart ∧ ram = { regions } := by
  rw [ofRegions, foldlM_add_eq_ok_iff]
  simp [empty]

/-- Regions that can be added in one order can be added in every other. -/
theorem ofRegions_perm {regions regions' : List Region} {ram : Ram}
    (built : ofRegions regions = .ok ram) (perm : regions'.Perm regions) :
    ofRegions regions' = .ok { regions := regions' } := by
  obtain ⟨addable, apart, _⟩ := (ofRegions_eq_ok_iff regions ram).mp built
  refine (ofRegions_eq_ok_iff ..).mpr ⟨fun r member => addable r (perm.mem_iff.mp member), ?_, rfl⟩
  exact (perm.pairwise_iff fun apart => Or.symm apart).mpr apart

theorem wellFormed_ofRegions {regions : List Region} {ram : Ram}
    (built : ofRegions regions = .ok ram) : ram.WellFormed := by
  obtain ⟨addable, apart, rfl⟩ := (ofRegions_eq_ok_iff regions ram).mp built
  exact ⟨fun r member => (addable r member).1, fun r member => (addable r member).2.1, apart⟩

/-! ### Looking regions up -/

/-- The range is empty and lies at the border of two regions, of which one grants the access and one
does not. -/
def Disputes (ram : Ram) (addr : UInt64) (len : Nat) (access : Rights) : Prop :=
  len = 0 ∧ ∃ r ∈ ram.regions, ∃ s ∈ ram.regions, r.stop = addr.toNat ∧ s.base = addr ∧
    r.rights.includes access ≠ s.rights.includes access

variable {ram ram' : Ram} {addr : UInt64} {len : Nat} {access : Rights}

theorem not_disputes_of_nonempty (nonempty : 0 < len) : ¬ ram.Disputes addr len access :=
  fun disputed => absurd disputed.1 (Nat.ne_of_gt nonempty)

/-- A window depends only on what the first region that holds the range grants. -/
theorem window_congr
    (same : (ram'.regions.find? (·.holds addr len)).map (·.rights.includes access) =
      (ram.regions.find? (·.holds addr len)).map (·.rights.includes access)) :
    ram'.window addr len access = ram.window addr len access := by
  simp only [window]
  cases found : ram.regions.find? (·.holds addr len) with
  | none =>
    cases found' : ram'.regions.find? (·.holds addr len) with
    | none => rfl
    | some r' => simp [found, found'] at same
  | some r =>
    cases found' : ram'.regions.find? (·.holds addr len) with
    | none => simp [found, found'] at same
    | some r' =>
      have granted : r'.rights.includes access = r.rights.includes access := by
        simpa [found, found'] using same
      simp only [granted]

/-- Two regions hold the same range only if it is empty and lies at their border. -/
theorem WellFormed.border (sound : ram.WellFormed) {r s : Region} (first : r ∈ ram.regions)
    (second : s ∈ ram.regions) (different : r ≠ s) (held : r.holds addr len = true)
    (held' : s.holds addr len = true) :
    len = 0 ∧ (r.stop = addr.toNat ∧ s.base = addr ∨ s.stop = addr.toNat ∧ r.base = addr) := by
  have symmetric : Std.Symm Region.Apart := ⟨fun _ _ => Or.symm⟩
  have apart : r.Apart s := sound.apart.forall first second different
  have nonempty := sound.nonempty r first
  have nonempty' := sound.nonempty s second
  rw [Region.holds_iff] at held held'
  simp only [Region.Apart, Region.stop, ← UInt64.toNat_inj] at *
  omega

/-- Unless it is disputed, a range leads to the same window in every order of the regions. -/
theorem window_perm (sound : ram.WellFormed) (perm : ram'.regions.Perm ram.regions)
    (settled : ¬ ram.Disputes addr len access) :
    ram'.window addr len access = ram.window addr len access := by
  apply window_congr
  cases found : ram.regions.find? (·.holds addr len) with
  | none =>
    have absent : ram'.regions.find? (·.holds addr len) = none :=
      List.find?_eq_none.mpr fun r member =>
        List.find?_eq_none.mp found r (perm.mem_iff.mp member)
    rw [absent]
  | some r =>
    have member := List.mem_of_find?_eq_some found
    have held : r.holds addr len = true := by simpa using List.find?_some found
    cases found' : ram'.regions.find? (·.holds addr len) with
    | none => exact absurd held (List.find?_eq_none.mp found' r (perm.mem_iff.mpr member))
    | some s =>
      have member' := perm.mem_iff.mp (List.mem_of_find?_eq_some found')
      have held' : s.holds addr len = true := by simpa using List.find?_some found'
      -- Two regions that hold the range grant alike, or the range is disputed.
      refine congrArg Option.some (not_not.mp fun differ => settled ?_)
      have different : r ≠ s := fun same => differ (same ▸ rfl)
      obtain ⟨isEmpty, ⟨ends, starts⟩ | ⟨ends, starts⟩⟩ :=
        sound.border member member' different held held'
      · exact ⟨isEmpty, r, member, s, member', ends, starts, Ne.symm differ⟩
      · exact ⟨isEmpty, s, member', r, member, ends, starts, differ⟩

/-- If a region holds a range and comes first, it decides. -/
theorem window_cons (r : Region) (regions : List Region) (store : Store)
    (held : r.holds addr len = true) :
    Ram.window ⟨r :: regions, store⟩ addr len access =
      if r.rights.includes access then .ok ⟨addr.toNat, len⟩
      else .error (.permission addr len access) := by
  simp only [window, List.find?_cons, held]

/-- Where a range is disputed the order decides. -/
theorem window_perm_iff (sound : ram.WellFormed) (addr : UInt64) (len : Nat) (access : Rights) :
    (∀ regions', regions'.Perm ram.regions →
      Ram.window ⟨regions', ram.store⟩ addr len access = ram.window addr len access) ↔
      ¬ ram.Disputes addr len access := by
  constructor
  · rintro same ⟨rfl, r, first, s, second, ends, starts, differ⟩
    have bound := addr.toNat_lt
    have held : r.holds addr 0 = true := by
      rw [Region.holds_iff, ends]
      simp only [Region.stop] at ends
      omega
    have held' : s.holds addr 0 = true := by
      rw [Region.holds_iff, starts]
      simp only [Region.stop, starts]
      omega
    -- Either region may come first.
    have one := same _ (List.perm_cons_erase first).symm
    have two := same _ (List.perm_cons_erase second).symm
    rw [window_cons r _ _ held] at one
    rw [window_cons s _ _ held'] at two
    have agree := one.trans two.symm
    cases grants : r.rights.includes access with
    | true =>
      rw [grants, if_pos rfl] at agree
      split at agree
      next grants' => exact differ (grants.trans grants'.symm)
      next => cases agree
    | false =>
      rw [grants, if_neg Bool.false_ne_true] at agree
      split at agree
      next => cases agree
      next refuses => exact differ (grants.trans (Bool.eq_false_iff.mpr refuses).symm)
  · intro settled regions' perm
    exact window_perm sound perm settled

end VirtioMmio.Memory.Ram
