import VirtioMmio.Proofs.Device.Moves
import VirtioMmio.Proofs.Dma.Balance

/-!
The IOMMU and the backend of a device both agree with its table of mappings, whatever each of them
answers. Main result: `dealings_balance`. The calls of a run and the answers to them make up a log
of deals; in every reachable state the deals that were not taken back are those in the table.
-/

namespace VirtioMmio

open Backend (BackendCall Call IommuCall)
open Dma (Account Balanced Deal InOrder Mapping Table)

/-! ### The log -/

namespace Device.Replies

/-- What a call that asks for something brings about, if the answer is no refusal. -/
def agreed? (replies : Replies) : Call → Option Deal
  | .iommu .attach => if replies.iommuAttach.isOk then some .iommuAttached else none
  | .backend .attach => if replies.backendAttach.isOk then some .backendAttached else none
  | .iommu (.map iova len rights) => (replies.iommuMap iova len rights).toOption.map .granted
  | .backend (.map cls mapping) =>
    if (replies.backendMap cls mapping).isOk then some (.announced cls mapping) else none
  | _ => none

end Device.Replies

namespace Action

def replies? : Action → Option Device.Replies
  | .attach replies | .map replies _ _ _ _ | .unmap replies _ => some replies
  | _ => none

/-- What a call of the action brings about. The end of something needs no agreement. -/
def deal? (action : Action) : Call → Option Deal
  | .iommu .detach => some .iommuDetached
  | .backend .detach => some .backendDetached
  | .iommu (.unmap mapping) => some (.revoked mapping)
  | .backend (.unmap cls mapping) => some (.withdrawn cls mapping)
  | call => action.replies?.bind (·.agreed? call)

theorem deal?_eq_none (action : Action) {call : Call} (other : call.isDealing = false) :
    action.deal? call = none := by
  have asked (replies : Device.Replies) : replies.agreed? call = none := by
    cases call with
    | line call => rfl
    | backend call => cases call <;> first | rfl | cases other
    | iommu call => cases other
  have unanswered : (action.replies?.bind fun replies => replies.agreed? call) = none :=
    Option.bind_eq_none_iff.mpr fun replies _ => asked replies
  cases call with
  | line call => exact unanswered
  | backend call => cases call <;> first | exact unanswered | cases other
  | iommu call => cases other

end Action

namespace Device

/-- What the calls of an action bring about, first to last. -/
def deals (d : Device) (action : Action) : List Deal :=
  ((d.step action).1.machine.calls.drop d.machine.calls.length).filterMap action.deal?

def dealsDuring (d : Device) : List Action → List Deal
  | [] => []
  | action :: later => d.deals action ++ (d.step action).1.dealsDuring later

theorem deals_of_dealt {d : Device} {action : Action} {calls : List Call} {dma : Table}
    (same : (d.step action).1 = d.dealt calls dma) :
    d.deals action = calls.filterMap action.deal? := by
  rw [deals, same, dealt]
  simp [Machine.record]

/-! ### One action -/

theorem balanced_of_dealt {d : Device} {action : Action} {log : List Deal} {calls : List Call}
    {dma : Table} (same : (d.step action).1 = d.dealt calls dma)
    (balanced : Balanced dma (log ++ calls.filterMap action.deal?)) :
    Balanced (d.step action).1.machine.dma (log ++ d.deals action) := by
  rw [deals_of_dealt same, same]
  exact balanced

theorem balanced_of_same {d : Device} {action : Action} {log : List Deal}
    (same : (d.step action).1 = d) (balanced : Balanced d.machine.dma log) :
    Balanced (d.step action).1.machine.dma (log ++ d.deals action) := by
  refine balanced_of_dealt (same.trans d.dealt_nil.symm) ?_
  rw [List.filterMap_nil, List.append_nil]
  exact balanced

theorem balanced_attach {d : Device} {log : List Deal} (balanced : Balanced d.machine.dma log)
    (replies : Replies) :
    Balanced (d.step (.attach replies)).1.machine.dma (log ++ d.deals (.attach replies)) := by
  have attaches := attaches d replies
  generalize outcome : d.attachIommu replies = result at attaches
  have after : (d.step (.attach replies)).1 = result.1 := congrArg Prod.fst outcome
  -- The deals of each outcome are read off the calls and the answers to them.
  cases attaches with
  | already attached => exact balanced_of_same after balanced
  | refused detached answer =>
    refine balanced_of_dealt after ?_
    simpa [Action.deal?, Action.replies?, Replies.agreed?, answer, Except.isOk, Except.toBool]
      using balanced
  | down detached agreed down =>
    refine balanced_of_dealt after ?_
    simpa [Action.deal?, Action.replies?, Replies.agreed?, agreed, Except.isOk, Except.toBool]
      using balanced.attachUndone
  | undone detached agreed going answer =>
    refine balanced_of_dealt after ?_
    simpa [Action.deal?, Action.replies?, Replies.agreed?, agreed, answer, Except.isOk,
      Except.toBool] using balanced.attachUndone
  | done detached agreed going answer =>
    refine balanced_of_dealt after ?_
    simpa [Action.deal?, Action.replies?, Replies.agreed?, agreed, answer, Except.isOk,
      Except.toBool] using balanced.attach detached

theorem balanced_map {d : Device} {log : List Deal} (balanced : Balanced d.machine.dma log)
    (replies : Replies) (cls : UInt16) (iova : UInt64) (len : Nat) (rights : Memory.Rights) :
    Balanced (d.step (.map replies cls iova len rights)).1.machine.dma
      (log ++ d.deals (.map replies cls iova len rights)) := by
  have maps := mapsClass d replies cls iova len rights
  generalize outcome : d.mapClass replies cls iova len rights = result at maps
  have after : (d.step (.map replies cls iova len rights)).1 = result.1 := congrArg Prod.fst outcome
  cases maps with
  | rejected e => exact balanced_of_same after balanced
  | refused answer =>
    refine balanced_of_dealt after ?_
    simpa [Action.deal?, Action.replies?, Replies.agreed?, answer, Except.toOption]
      using balanced
  | undone agreed answer =>
    refine balanced_of_dealt after ?_
    simpa [Action.deal?, Action.replies?, Replies.agreed?, agreed, answer, Except.toOption,
      Except.isOk, Except.toBool] using balanced.mapUndone
  | done attached free agreed answer =>
    refine balanced_of_dealt after ?_
    simpa [Action.deal?, Action.replies?, Replies.agreed?, agreed, answer, Except.toOption,
      Except.isOk, Except.toBool, Table.put] using balanced.map attached free

theorem balanced_unmap {d : Device} {log : List Deal} (balanced : Balanced d.machine.dma log)
    (replies : Replies) (cls : UInt16) :
    Balanced (d.step (.unmap replies cls)).1.machine.dma (log ++ d.deals (.unmap replies cls)) := by
  have after : (d.step (.unmap replies cls)).1 =
      if d.machine.dma.attached then d.dropClass cls else d := unmapClass_eq d replies cls
  have forgets := forgets_dropClass d cls
  split at after
  · generalize d.dropClass cls = d' at after forgets
    cases forgets with
    | unmapped none => exact balanced_of_same after balanced
    | done found => exact balanced_of_dealt after (balanced.forget found)
  · exact balanced_of_same after balanced

/-- Dropping classes one by one keeps the books, and leaves none of them mapped. -/
theorem balanced_foldl_dropClass {d : Device} {log : List Deal}
    (balanced : Balanced d.machine.dma log) (action : Action) (classes : List UInt16) :
    ∃ calls dma, classes.foldl dropClass d = d.dealt calls dma ∧
      Balanced dma (log ++ calls.filterMap action.deal?) ∧
      dma.attached = d.machine.dma.attached ∧
      ∀ cls, cls ∈ classes ∨ d.machine.dma.mapping cls = none → dma.mapping cls = none := by
  induction classes generalizing d log with
  | nil =>
    refine ⟨[], d.machine.dma, d.dealt_nil.symm, ?_, rfl, fun cls gone => gone.resolve_left nofun⟩
    rw [List.filterMap_nil, List.append_nil]
    exact balanced
  | cons cls classes ih =>
    have forgets := forgets_dropClass d cls
    rw [List.foldl_cons]
    generalize d.dropClass cls = d' at forgets ⊢
    cases forgets with
    | unmapped none =>
      -- No deal is made for a class that is not mapped.
      obtain ⟨calls, dma, same, after, attached, gone⟩ := ih balanced
      refine ⟨calls, dma, same, after, attached, fun c member => gone c ?_⟩
      rcases member with listed | free
      · rcases List.mem_cons.mp listed with rfl | later
        · exact .inr none
        · exact .inl later
      · exact .inr free
    | done found =>
      obtain ⟨calls, dma, same, after, attached, gone⟩ := ih (d := d.dealt _ _) (balanced.forget found)
      refine ⟨_ ++ calls, dma, same.trans (dealt_dealt ..), ?_, attached, fun c member => gone c ?_⟩
      · rw [List.filterMap_append, ← List.append_assoc]
        exact after
      · -- A class is unmapped from when its turn comes, or has been all along.
        have now := Table.mapping_put found none c
        rcases member with listed | free
        · rcases List.mem_cons.mp listed with rfl | later
          · exact .inr (now.trans (if_pos rfl))
          · exact .inl later
        · refine .inr (now.trans ?_)
          rw [free]
          split <;> rfl

theorem balanced_detach {d : Device} {log : List Deal} (balanced : Balanced d.machine.dma log) :
    Balanced (d.step .detach).1.machine.dma (log ++ d.deals .detach) := by
  have after := detachIommu_eq d
  split at after
  next attached =>
    obtain ⟨calls, dma, same, still, kept, gone⟩ := balanced_foldl_dropClass balanced .detach
      ((List.range d.machine.dma.classes.length).map UInt16.ofNat)
    -- Every class that can be mapped is in the list.
    have empty (cls : UInt16) : dma.mapping cls = none := by
      refine gone cls ?_
      rcases Nat.lt_or_ge cls.toNat d.machine.dma.classes.length with inside | beyond
      · refine .inl (List.mem_map.mpr ⟨cls.toNat, List.mem_range.mpr inside, ?_⟩)
        exact UInt16.ofNat_toNat
      · refine .inr ?_
        rw [Table.mapping, List.getElem?_eq_none beyond]
        rfl
    rw [same, dealt_dealt] at after
    refine balanced_of_dealt after ?_
    rw [List.filterMap_append, ← List.append_assoc]
    exact still.detach (kept.trans attached) empty
  next detached => exact balanced_of_same after balanced

theorem balanced_step {d : Device} (settled : d.Settled) {log : List Deal}
    (balanced : Balanced d.machine.dma log) (action : Action) :
    Balanced (d.step action).1.machine.dma (log ++ d.deals action) := by
  cases about : action.isDealing with
  | false =>
    -- The calls of other actions are no deals, and their moves leave the table alone.
    have moves := step_moves settled about
    obtain ⟨calls, more, plain⟩ := moves.calls
    have nothing : d.deals action = [] := by
      rw [deals, more, List.drop_left, List.filterMap_eq_nil_iff]
      exact fun call member => action.deal?_eq_none (plain call member)
    rw [nothing, List.append_nil, moves.dma]
    exact balanced
  | true =>
    cases action with
    | attach replies => exact balanced_attach balanced replies
    | detach => exact balanced_detach balanced
    | map replies cls iova len rights => exact balanced_map balanced replies cls iova len rights
    | unmap replies cls => exact balanced_unmap balanced replies cls
    | _ => cases about

/-! ### Runs -/

theorem balanced_run {d : Device} (settled : d.Settled) {log : List Deal}
    (balanced : Balanced d.machine.dma log) (actions : List Action) :
    Balanced (d.run actions).1.machine.dma (log ++ d.dealsDuring actions) := by
  -- The log so far grows by the deals of one action, and the table follows.
  induction actions generalizing d log with
  | nil =>
    rw [dealsDuring, List.append_nil]
    exact balanced
  | cons action later ih =>
    rw [dealsDuring, ← List.append_assoc]
    exact ih (settled_step settled action) (balanced_step settled balanced action)

/-- Between any two actions of a run, on either side of an IOMMU, what was agreed to and not taken
back is what the table of mappings says, class by class and in all: both sides are attached or
neither is, and without an IOMMU no class is mapped. Whatever is unmapped on the IOMMU is a mapping
that it granted before, for that class. A mapping that does not come about leaves the table as it
was, and one that does enters just what the IOMMU granted. -/
theorem dealings_balance {profile : Profile} {options : Options} {ram : Memory.Ram}
    {d₀ d : Device} (built : Device.new profile options ram = .ok d₀) (actions : List Action)
    (reached : (d₀.run actions).1 = d) :
    (∀ account : Account, (d₀.dealsDuring actions).countP account.opens =
        (d₀.dealsDuring actions).countP account.closes + account.balance d.machine.dma) ∧
      (d.machine.dma.attached = false → ∀ cls, d.machine.dma.mapping cls = none) ∧
      InOrder (d₀.dealsDuring actions) ∧
      (∀ replies cls mapping, d.machine.dma.mapping cls = some mapping →
        d.deals (.unmap replies cls) = [.withdrawn cls mapping, .revoked mapping]) ∧
      ∀ replies cls iova len rights,
        (∀ e, (d.mapClass replies cls iova len rights).2 = .error e →
          (d.mapClass replies cls iova len rights).1.machine.dma = d.machine.dma) ∧
        ∀ mapping, (d.mapClass replies cls iova len rights).2 = .ok mapping →
          replies.iommuMap iova len rights = .ok mapping ∧
          ∀ c, (d.mapClass replies cls iova len rights).1.machine.dma.mapping c =
            if c = cls then some mapping else d.machine.dma.mapping c := by
  have start : Balanced d₀.machine.dma [] := by
    rw [new_eq_ok built]
    exact Balanced.unmapped profile.queues
  have balanced := balanced_run (settled_new built) start actions
  rw [reached, List.nil_append] at balanced
  refine ⟨balanced.accounts, balanced.detached, balanced.inOrder, ?_, ?_⟩
  · intro replies cls mapping mapped
    -- A class is mapped only while an IOMMU is attached.
    have attached : d.machine.dma.attached = true := by
      cases attached : d.machine.dma.attached with
      | true => rfl
      | false => exact nomatch mapped.symm.trans (balanced.detached attached cls)
    have after : (d.step (.unmap replies cls)).1 = d.dropClass cls :=
      (unmapClass_eq d replies cls).trans (if_pos attached)
    have forgets := forgets_dropClass d cls
    generalize d.dropClass cls = d' at after forgets
    cases forgets with
    | unmapped none => exact nomatch mapped.symm.trans none
    | done found =>
      cases mapped.symm.trans (Table.mapping_of_slot found)
      exact deals_of_dealt after
  · intro replies cls iova len rights
    have maps := mapsClass d replies cls iova len rights
    generalize d.mapClass replies cls iova len rights = result at maps ⊢
    cases maps with
    | rejected e => exact ⟨fun _ _ => rfl, nofun⟩
    | refused answer => exact ⟨fun _ _ => rfl, nofun⟩
    | undone agreed answer => exact ⟨fun _ _ => rfl, nofun⟩
    | done attached free agreed answer =>
      refine ⟨nofun, fun mapping granted => ?_⟩
      cases granted
      exact ⟨agreed, Table.mapping_put free _⟩

/-! The IOMMU of the sample device grants a mapping that the backend refuses, then one that it
takes, and at last is detached. -/

def reluctantReplies : Replies where
  iommuMap _ _ _ := .ok sampleWindow
  backendMap _ _ := .error (.mapFailed 0x1000 0xf00)

def sampleDealings : List Action :=
  [.attach sampleReplies, .map reluctantReplies 0 0x1000 0xf00 .both,
    .map sampleReplies 0 0x1000 0xf00 .both, .detach]

theorem sampleDealings_balance :
    sampleStart.dealsDuring sampleDealings =
        [.iommuAttached, .backendAttached, .granted sampleWindow, .revoked sampleWindow,
          .granted sampleWindow, .announced 0 sampleWindow, .withdrawn 0 sampleWindow,
          .revoked sampleWindow, .backendDetached, .iommuDetached] ∧
      InOrder (sampleStart.dealsDuring sampleDealings) ∧
      (sampleStart.run sampleDealings).1.machine.dma.mapping 0 = none := by
  obtain ⟨accounts, detached, inOrder, _⟩ :=
    dealings_balance sampleStart_built sampleDealings rfl
  have deals : sampleStart.dealsDuring sampleDealings =
      [.iommuAttached, .backendAttached, .granted sampleWindow, .revoked sampleWindow,
        .granted sampleWindow, .announced 0 sampleWindow, .withdrawn 0 sampleWindow,
        .revoked sampleWindow, .backendDetached, .iommuDetached] := by
    decide +kernel
  have attached := accounts .iommu
  rw [deals] at attached
  refine ⟨deals, inOrder, detached ?_ 0⟩
  cases still : (sampleStart.run sampleDealings).1.machine.dma.attached with
  | false => rfl
  | true =>
    rw [Account.balance, still] at attached
    exact absurd attached (by decide)

end Device

end VirtioMmio
