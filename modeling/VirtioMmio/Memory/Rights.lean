/-!
Access rights of a range of memory.
-/

namespace VirtioMmio.Memory

structure Rights where
  read : Bool
  write : Bool
  deriving DecidableEq, Repr, Inhabited

namespace Rights

def nothing : Rights := ⟨false, false⟩
def reading : Rights := ⟨true, false⟩
def writing : Rights := ⟨false, true⟩
def both : Rights := ⟨true, true⟩

/-- `granted.includes needed`: every right that is needed is granted. -/
def includes (granted needed : Rights) : Bool :=
  (granted.read || !needed.read) && (granted.write || !needed.write)

def describe : Rights → String
  | ⟨true, true⟩ => "MemFlags(READ | WRITE)"
  | ⟨true, false⟩ => "MemFlags(READ)"
  | ⟨false, true⟩ => "MemFlags(WRITE)"
  | ⟨false, false⟩ => "MemFlags(0x0)"

theorem includes_iff {granted needed : Rights} :
    granted.includes needed = true ↔
      (needed.read = true → granted.read = true) ∧
        (needed.write = true → granted.write = true) := by
  obtain ⟨a, b⟩ := granted
  obtain ⟨c, d⟩ := needed
  cases a <;> cases b <;> cases c <;> cases d <;> decide

theorem includes_trans {a b c : Rights} (ab : a.includes b = true) (bc : b.includes c = true) :
    a.includes c = true := by
  rw [includes_iff] at *
  exact ⟨fun h => ab.1 (bc.1 h), fun h => ab.2 (bc.2 h)⟩

end Rights

end VirtioMmio.Memory
