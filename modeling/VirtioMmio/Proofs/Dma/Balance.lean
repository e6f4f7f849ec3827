import Mathlib.Data.List.Infix
import VirtioMmio.Dma.Table

/-!
The books on an IOMMU: what it and the backend agreed to and what was taken back, against the table
of mappings. Main results: `Balanced.attach`, `Balanced.map`, `Balanced.forget` and
`Balanced.detach`, and `Balanced.attachUndone` and `Balanced.mapUndone` for what one side agreed to
and the other did not. All of them enter two deals, and the books balance again after the second.
-/

namespace VirtioMmio.Dma

/-- What a call on one of the two sides brought about. -/
inductive Deal where
  | iommuAttached
  | iommuDetached
  | backendAttached
  | backendDetached
  -- The IOMMU mapped a range, or was told to unmap it.
  | granted (mapping : Mapping)
  | revoked (mapping : Mapping)
  -- The backend agreed to the mapping of a class, or was told of its end.
  | announced (cls : UInt16) (mapping : Mapping)
  | withdrawn (cls : UInt16) (mapping : Mapping)
  deriving DecidableEq, Repr

/-- Deals that are entered against each other. Mappings are counted by any property of them. -/
inductive Account where
  | iommu
  | backend
  | granted (p : Mapping → Bool)
  | announced (cls : UInt16) (p : Mapping → Bool)

namespace Account

def opens : Account → Deal → Bool
  | .iommu, .iommuAttached | .backend, .backendAttached => true
  | .granted p, .granted mapping => p mapping
  | .announced cls p, .announced c mapping => c == cls && p mapping
  | _, _ => false

def closes : Account → Deal → Bool
  | .iommu, .iommuDetached | .backend, .backendDetached => true
  | .granted p, .revoked mapping => p mapping
  | .announced cls p, .withdrawn c mapping => c == cls && p mapping
  | _, _ => false

/-- More was opened than closed. -/
def IsOpen (account : Account) (log : List Deal) : Prop :=
  log.countP account.closes < log.countP account.opens

/-- What is open by a table. -/
def balance : Account → Table → Nat
  | .iommu, table | .backend, table => table.attached.toNat
  | .granted p, table => table.classes.countP (·.any p)
  | .announced cls p, table => ((table.mapping cls).any p).toNat

end Account

/-- What has to come before a deal. Only what the IOMMU just granted is announced. What is withdrawn
was announced for the class, and not withdrawn since; what is revoked was granted and not revoked
since, and is what was withdrawn just before, or granted just before and not announced. -/
def Deal.Owed (before : List Deal) : Deal → Prop
  | .announced _ mapping => before.getLast? = some (.granted mapping)
  | .withdrawn cls mapping => (Account.announced cls (· == mapping)).IsOpen before
  | .revoked mapping =>
    (Account.granted (· == mapping)).IsOpen before ∧
      (before.getLast? = some (.granted mapping) ∨
        ∃ cls, before.getLast? = some (.withdrawn cls mapping))
  | _ => True

/-- Before every deal came what has to come before it. -/
def InOrder (log : List Deal) : Prop :=
  ∀ before deal, before ++ [deal] <+: log → deal.Owed before

namespace InOrder

theorem nil : InOrder [] := by
  intro before deal front
  simp at front

theorem concat {log : List Deal} (inOrder : InOrder log) {deal : Deal} (owed : deal.Owed log) :
    InOrder (log ++ [deal]) := by
  intro before other front
  rcases List.prefix_concat_iff.mp front with whole | earlier
  · obtain ⟨rfl, same⟩ := List.append_inj' whole rfl
    cases same
    exact owed
  · exact inOrder before other earlier

theorem pair {log : List Deal} (inOrder : InOrder log) {first second : Deal}
    (owed : first.Owed log) (owed' : second.Owed (log ++ [first])) :
    InOrder (log ++ [first, second]) := by
  have whole := (inOrder.concat owed).concat owed'
  rwa [List.append_assoc] at whole

end InOrder

/-! ### Tables -/

namespace Table

variable {table : Table} {cls : UInt16} {slot : Option Mapping}

theorem mapping_of_slot (found : table.classes[cls.toNat]? = some slot) :
    table.mapping cls = slot := by
  rw [mapping, found]
  rfl

/-- The table with another mapping in the slot of a class. -/
def put (table : Table) (cls : UInt16) (slot : Option Mapping) : Table :=
  { table with classes := table.classes.set cls.toNat slot }

theorem mapping_put (found : table.classes[cls.toNat]? = some slot) (slot' : Option Mapping)
    (c : UInt16) : (table.put cls slot').mapping c = if c = cls then slot' else table.mapping c := by
  obtain ⟨inside, -⟩ := List.getElem?_eq_some_iff.mp found
  by_cases same : c = cls
  · simp [put, mapping, same, inside]
  · have apart : cls.toNat ≠ c.toNat := fun h => same (UInt16.toNat_inj.mp h).symm
    simp [put, mapping, same, List.getElem?_set_ne apart]

theorem countP_put (found : table.classes[cls.toNat]? = some slot) (slot' : Option Mapping)
    (p : Option Mapping → Bool) :
    (table.put cls slot').classes.countP p + (p slot).toNat =
      table.classes.countP p + (p slot').toNat := by
  obtain ⟨inside, here⟩ := List.getElem?_eq_some_iff.mp found
  have counted : (p slot).toNat ≤ table.classes.countP p := by
    cases holds : p slot with
    | false => exact Nat.zero_le _
    | true => exact List.countP_pos_iff.mpr ⟨slot, List.mem_of_getElem? found, holds⟩
  have unit (b : Bool) : (if b = true then 1 else 0) = b.toNat := by cases b <;> rfl
  rw [put, List.countP_set inside, here, unit, unit]
  omega

end Table

/-! ### The books -/

/-- The deals of a log come to a table: what is in the table, and no more, was agreed to and not
taken back. -/
structure Balanced (table : Table) (log : List Deal) : Prop where
  inOrder : InOrder log
  accounts : ∀ account : Account,
    log.countP account.opens = log.countP account.closes + account.balance table
  detached : table.attached = false → ∀ cls, table.mapping cls = none

namespace Balanced

variable {table table' : Table} {log : List Deal} {cls : UInt16} {mapping : Mapping}

theorem unmapped (count : Nat) : Balanced (.unmapped count) [] := by
  have none (cls : UInt16) : (Table.unmapped count).mapping cls = none := by
    simp only [Table.unmapped, Table.mapping, List.getElem?_replicate]
    split <;> rfl
  refine ⟨.nil, fun account => ?_, fun _ => none⟩
  cases account with
  | iommu => rfl
  | backend => rfl
  | granted p => simp [Account.balance, Table.unmapped, List.countP_replicate]
  | announced cls p => simp [Account.balance, none]

theorem pair (balanced : Balanced table log) {first second : Deal} (owed : first.Owed log)
    (owed' : second.Owed (log ++ [first]))
    (each : ∀ account : Account,
      (account.opens first).toNat + (account.opens second).toNat + account.balance table =
        (account.closes first).toNat + (account.closes second).toNat + account.balance table')
    (detached : table'.attached = false → ∀ cls, table'.mapping cls = none) :
    Balanced table' (log ++ [first, second]) := by
  refine ⟨balanced.inOrder.pair owed owed', fun account => ?_, detached⟩
  have before := balanced.accounts account
  have change := each account
  have added (p : Deal → Bool) :
      (log ++ [first, second]).countP p = log.countP p + (p first).toNat + (p second).toNat := by
    simp only [List.countP_append, List.countP_cons, List.countP_nil]
    cases p first <;> cases p second <;> rfl
  rw [added, added]
  omega

theorem attach (balanced : Balanced table log) (detached : table.attached = false) :
    Balanced { table with attached := true } (log ++ [.iommuAttached, .backendAttached]) := by
  refine balanced.pair trivial trivial (fun account => ?_) nofun
  cases account with
  | iommu => simp [Account.opens, Account.closes, Account.balance, detached]
  | backend => simp [Account.opens, Account.closes, Account.balance, detached]
  | granted p => rfl
  | announced cls p => rfl

/-- The IOMMU agreed, but the backend did not. -/
theorem attachUndone (balanced : Balanced table log) :
    Balanced table (log ++ [.iommuAttached, .iommuDetached]) := by
  refine balanced.pair trivial trivial (fun account => ?_) balanced.detached
  cases account <;> rfl

theorem detach (balanced : Balanced table log) (attached : table.attached = true)
    (empty : ∀ cls, table.mapping cls = none) :
    Balanced { table with attached := false } (log ++ [.backendDetached, .iommuDetached]) := by
  refine balanced.pair trivial trivial (fun account => ?_) fun _ => empty
  cases account with
  | iommu => simp [Account.opens, Account.closes, Account.balance, attached]
  | backend => simp [Account.opens, Account.closes, Account.balance, attached]
  | granted p => rfl
  | announced cls p => rfl

theorem map (balanced : Balanced table log) (attached : table.attached = true)
    (free : table.classes[cls.toNat]? = some none) :
    Balanced (table.put cls (some mapping))
      (log ++ [.granted mapping, .announced cls mapping]) := by
  refine balanced.pair trivial List.getLast?_concat (fun account => ?_) fun none => ?_
  · cases account with
    | iommu => rfl
    | backend => rfl
    | granted p =>
      have put := Table.countP_put free (some mapping) (·.any p)
      rw [Option.any_none, Option.any_some, Bool.toNat_false, Nat.add_zero] at put
      show (p mapping).toNat + 0 + table.classes.countP (·.any p) = 0 + 0 + _
      rw [Nat.add_zero, Nat.zero_add, Nat.add_comm]
      exact put.symm
    | announced c p =>
      have before := Table.mapping_of_slot free
      simp only [Account.opens, Account.closes, Account.balance, Table.mapping_put free]
      by_cases same : c = cls
      · simp [same, before]
      · simp [same, Ne.symm same]
  · exact nomatch attached.symm.trans none

/-- The IOMMU agreed, but the backend did not. -/
theorem mapUndone (balanced : Balanced table log) :
    Balanced table (log ++ [.granted mapping, .revoked mapping]) := by
  have before := balanced.accounts (.granted (· == mapping))
  refine balanced.pair trivial ⟨?_, .inl List.getLast?_concat⟩ (fun account => ?_)
    balanced.detached
  · -- The grant itself is open on top of all that was open before.
    simp only [Account.IsOpen, List.countP_append, List.countP_singleton, Account.opens,
      Account.closes, BEq.rfl, Bool.false_eq_true, if_true, if_false]
    omega
  · cases account <;> simp [Account.opens, Account.closes]

theorem forget (balanced : Balanced table log)
    (found : table.classes[cls.toNat]? = some (some mapping)) :
    Balanced (table.put cls none) (log ++ [.withdrawn cls mapping, .revoked mapping]) := by
  have here := Table.mapping_of_slot found
  -- A mapping in the table is open on both of its accounts.
  have told : (Account.announced cls (· == mapping)).IsOpen log := by
    have before := balanced.accounts (.announced cls (· == mapping))
    have one : (Account.announced cls (· == mapping)).balance table = 1 := by
      simp [Account.balance, here]
    rw [one] at before
    exact Nat.lt_of_lt_of_eq (Nat.lt_succ_self _) before.symm
  have granted : (Account.granted (· == mapping)).IsOpen log := by
    have before := balanced.accounts (.granted (· == mapping))
    have counted : 0 < table.classes.countP (·.any (· == mapping)) :=
      List.countP_pos_iff.mpr ⟨some mapping, List.mem_of_getElem? found, by simp⟩
    exact Nat.lt_of_lt_of_eq (Nat.lt_add_of_pos_right counted) before.symm
  refine balanced.pair told ⟨?_, .inr ⟨cls, List.getLast?_concat⟩⟩ (fun account => ?_)
    fun none c => ?_
  · -- What was withdrawn just before does not count for the IOMMU.
    simpa [Account.IsOpen, Account.opens, Account.closes] using granted
  · cases account with
    | iommu => rfl
    | backend => rfl
    | granted p =>
      have put := Table.countP_put found none (·.any p)
      rw [Option.any_none, Option.any_some, Bool.toNat_false, Nat.add_zero] at put
      show 0 + 0 + table.classes.countP (·.any p) = 0 + (p mapping).toNat + _
      rw [Nat.zero_add, Nat.zero_add, Nat.add_comm]
      exact put.symm
    | announced c p =>
      simp only [Account.opens, Account.closes, Account.balance, Table.mapping_put found]
      by_cases same : c = cls
      · simp [same, here]
      · simp [same, Ne.symm same]
  · rw [Table.mapping_put found, balanced.detached none c]
    split <;> rfl

end Balanced

end VirtioMmio.Dma
