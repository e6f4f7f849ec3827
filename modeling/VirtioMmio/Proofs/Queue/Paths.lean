import Mathlib.Data.List.Nodup
import Mathlib.Data.List.Perm.Subperm
import VirtioMmio.Proofs.Queue.Rings

/-!
Ways through a table of descriptors. `Path` says what a driver may write: links that stay inside the
table, meet no entry twice and come to an end. `follow` does not look for repetitions; it has a
budget of one step for every entry. Both are the same: a way that meets an entry twice goes round
for ever, and one that does not has at most as many steps as the table has entries.
-/

namespace VirtioMmio.Queue

open Vring (Descriptor)
open Dma (Space)
open Memory (Rights)

/-- A descriptor, and the entry it was found at. -/
structure Hop where
  index : UInt16
  desc : Descriptor

/-- A way through a table of `count` entries, where `entry i d` tells that `d` is entry `i`. It
starts at `first`, follows links from direct descriptors and ends at the one descriptor without a
link, which alone may be indirect. -/
structure Path (entry : UInt16 → Descriptor → Prop) (count : Nat) (first : UInt16)
    (path : List Hop) : Prop where
  start : path.head?.map Hop.index = some first
  found : ∀ h ∈ path, entry h.index h.desc
  inside : ∀ h ∈ path, h.index.toNat < count
  once : (path.map Hop.index).Nodup
  linked : path.IsChain fun h next =>
    h.desc.isIndirect = false ∧ h.desc.hasNext = true ∧ h.desc.next = next.index
  ends : ∀ h ∈ path.getLast?, h.desc.hasNext = false

/-- Everything about a path but that it meets no entry twice; the last descriptor may have a link
if it is indirect. -/
inductive Trail (entry : UInt16 → Descriptor → Prop) (count : Nat) : UInt16 → List Hop → Prop
  | stop {i : UInt16} {d : Descriptor} (inside : i.toNat < count) (found : entry i d)
      (ends : d.hasNext = false ∨ d.isIndirect = true) : Trail entry count i [⟨i, d⟩]
  | step {i : UInt16} {d : Descriptor} {rest : List Hop} (inside : i.toNat < count)
      (found : entry i d) (direct : d.isIndirect = false) (linked : d.hasNext = true)
      (onward : Trail entry count d.next rest) : Trail entry count i (⟨i, d⟩ :: rest)

variable {entry : UInt16 → Descriptor → Prop} {count : Nat}

theorem Trail.head {first : UInt16} {path : List Hop} (trail : Trail entry count first path) :
    ∃ d rest, path = ⟨first, d⟩ :: rest := by
  cases trail with
  | stop => exact ⟨_, [], rfl⟩
  | step => exact ⟨_, _, rfl⟩

theorem Trail.each {first : UInt16} {path : List Hop} (trail : Trail entry count first path) :
    ∀ h ∈ path, entry h.index h.desc ∧ h.index.toNat < count := by
  induction trail with
  | stop inside found =>
    intro h member
    rw [List.mem_singleton.mp member]
    exact ⟨found, inside⟩
  | step inside found _ _ _ ih =>
    intro h member
    rcases List.mem_cons.mp member with rfl | later
    · exact ⟨found, inside⟩
    · exact ih h later

theorem Trail.linked {first : UInt16} {path : List Hop} (trail : Trail entry count first path) :
    path.IsChain fun h next =>
      h.desc.isIndirect = false ∧ h.desc.hasNext = true ∧ h.desc.next = next.index := by
  induction trail with
  | stop => exact .singleton _
  | step _ _ direct linked onward ih =>
    obtain ⟨d, rest, rfl⟩ := onward.head
    exact .cons_cons ⟨direct, linked, rfl⟩ ih

/-- Only the last descriptor of a trail can be indirect. -/
theorem Trail.direct_of_front {first : UInt16} {front : List Hop} {last : Hop}
    (trail : Trail entry count first (front ++ [last])) :
    ∀ h ∈ front, h.desc.isIndirect = false := by
  induction front generalizing first with
  | nil => simp
  | cons g front ih =>
    rw [List.cons_append] at trail
    generalize tail : front ++ [last] = rest at trail
    cases trail with
    | stop =>
      -- A trail of one entry has an empty front.
      simp at tail
    | step _ _ direct _ onward =>
      subst tail
      intro h member
      rcases List.mem_cons.mp member with rfl | later
      · exact direct
      · exact ih onward h later

/-- A trail that ends with a direct descriptor ends for lack of a link. -/
theorem Trail.ends_of_direct {first : UInt16} {path : List Hop}
    (trail : Trail entry count first path) (all : ∀ h ∈ path, h.desc.isIndirect = false) :
    ∀ h ∈ path.getLast?, h.desc.hasNext = false := by
  induction trail with
  | stop _ _ ends =>
    rcases ends with ends | indirect
    · simpa using ends
    · simp_all
  | step _ _ _ _ onward ih =>
    obtain ⟨e, rest, rfl⟩ := onward.head
    have later := ih fun h member => all h (List.mem_cons_of_mem _ member)
    simpa using later

/-! ### No entry twice -/

/-- Where a trail leads depends on where it starts only. -/
theorem Trail.unique (functional : ∀ i d e, entry i d → entry i e → d = e) {first : UInt16}
    {path other : List Hop} (trail : Trail entry count first path)
    (second : Trail entry count first other) : path = other := by
  induction trail generalizing other with
  | stop _ found ends =>
    cases second with
    | stop _ found' => rw [functional _ _ _ found found']
    | step _ found' direct linked =>
      rw [functional _ _ _ found found', direct, linked] at ends
      simp at ends
  | step _ found direct linked _ ih =>
    cases second with
    | stop _ found' ends =>
      rw [functional _ _ _ found' found, direct, linked] at ends
      simp at ends
    | step _ found' _ _ onward =>
      cases functional _ _ _ found found'
      rw [ih onward]

/-- From every entry it meets a trail goes on as a trail. -/
theorem Trail.onward {first : UInt16} {path : List Hop} (trail : Trail entry count first path) :
    ∀ h ∈ path, ∃ rest, rest.length ≤ path.length ∧ Trail entry count h.index rest := by
  induction trail with
  | stop inside found ends =>
    intro h member
    rw [List.mem_singleton.mp member]
    exact ⟨_, Nat.le_refl _, .stop inside found ends⟩
  | step inside found direct linked onward ih =>
    intro h member
    rcases List.mem_cons.mp member with rfl | later
    · exact ⟨_, Nat.le_refl _, .step inside found direct linked onward⟩
    · obtain ⟨rest, short, trail⟩ := ih h later
      exact ⟨rest, Nat.le_succ_of_le short, trail⟩

theorem Trail.nodup (functional : ∀ i d e, entry i d → entry i e → d = e) {first : UInt16}
    {path : List Hop} (trail : Trail entry count first path) : (path.map Hop.index).Nodup := by
  induction trail with
  | stop => exact List.nodup_singleton _
  | @step i d rest inside found direct linked onward ih =>
    refine List.nodup_cons.mpr ⟨?_, ih⟩
    intro again
    obtain ⟨h, member, same⟩ := List.mem_map.mp again
    obtain ⟨shorter, bound, trail⟩ := onward.onward h member
    -- Both trails start at `i`, so they are one; but the second is shorter than the first.
    rw [show h.index = i from same] at trail
    have whole := Trail.unique functional (.step inside found direct linked onward) trail
    rw [← whole, List.length_cons] at bound
    omega

theorem path_iff_trail (functional : ∀ i d e, entry i d → entry i e → d = e) (first : UInt16)
    (path : List Hop) :
    Path entry count first path ↔
      Trail entry count first path ∧ ∀ h ∈ path.getLast?, h.desc.hasNext = false := by
  constructor
  · intro way
    refine ⟨?_, way.ends⟩
    -- The rest of a path that repeats nothing repeats nothing either, but a trail does not ask.
    obtain ⟨start, found, inside, once, linked, ends⟩ := way
    clear once
    induction path generalizing first with
    | nil => cases start
    | cons h rest ih =>
      have here : h.index = first := by simpa using start
      subst here
      have foundHere := found h List.mem_cons_self
      have insideHere := inside h List.mem_cons_self
      cases rest with
      | nil => exact .stop insideHere foundHere (.inl (ends h (by simp)))
      | cons g rest =>
        obtain ⟨⟨direct, hasNext, next⟩, linked⟩ := List.isChain_cons_cons.mp linked
        refine .step insideHere foundHere direct hasNext (ih h.desc.next ?_ ?_ ?_ linked ?_)
        · simp [next]
        · exact fun k member => found k (List.mem_cons_of_mem _ member)
        · exact fun k member => inside k (List.mem_cons_of_mem _ member)
        · simpa using ends
  · rintro ⟨trail, ends⟩
    refine ⟨?_, fun h m => (trail.each h m).1, fun h m => (trail.each h m).2,
      trail.nodup functional, trail.linked, ends⟩
    obtain ⟨d, rest, rfl⟩ := trail.head
    rfl

/-- Different entries are at most as many as the table has. -/
theorem length_le_of_nodup {indices : List UInt16} (once : indices.Nodup)
    (inside : ∀ i ∈ indices, i.toNat < count) : indices.length ≤ count := by
  -- The numbers of the entries are different numbers below `count`.
  have distinct : (indices.map UInt16.toNat).Nodup :=
    once.map fun _ _ => UInt16.toNat_inj.mp
  have listed : indices.map UInt16.toNat ⊆ List.range count := by
    intro n member
    obtain ⟨i, found, rfl⟩ := List.mem_map.mp member
    exact List.mem_range.mpr (inside i found)
  have bound := (List.subperm_of_subset distinct listed).length_le
  simpa using bound

/-- Steps without repetition are at most as many as there are entries. -/
theorem Path.length_le {first : UInt16} {path : List Hop} (way : Path entry count first path) :
    path.length ≤ count := by
  have bound : (path.map Hop.index).length ≤ count := by
    apply length_le_of_nodup way.once
    intro i member
    obtain ⟨h, hop, rfl⟩ := List.mem_map.mp member
    exact way.inside h hop
  rwa [List.length_map] at bound

theorem Path.congr {entry' : UInt16 → Descriptor → Prop} {first : UInt16} {path : List Hop}
    (same : ∀ i d, i.toNat < count → (entry i d ↔ entry' i d))
    (way : Path entry count first path) : Path entry' count first path :=
  { way with
    found := fun h member => (same h.index h.desc (way.inside h member)).mp (way.found h member) }

/-! ### Admission of buffers -/

def Granted (s : Space) (d : Descriptor) : Prop :=
  s.check d.addr d.len.toNat (if d.isWritable then Rights.writing else Rights.reading) = .ok ()

/-- No readable buffer follows a writable one, and every buffer is granted. `seenWritable` tells
whether a writable buffer came before. -/
structure Admits (s : Space) (seenWritable : Bool) (ds : List Descriptor) : Prop where
  after : seenWritable = true → ∀ d ∈ ds, d.isWritable = true
  ordered : ds.Pairwise fun d e => d.isWritable = true → e.isWritable = true
  granted : ∀ d ∈ ds, Granted s d

theorem checkBuffer_eq_ok_iff (s : Space) (seen : Bool) (d : Descriptor) (w : Bool) :
    checkBuffer s seen d = .ok w ↔
      w = d.isWritable ∧ (seen = true → d.isWritable = true) ∧ Granted s d := by
  simp only [checkBuffer, Granted]
  cases writable : d.isWritable <;> cases seen <;>
    simp only [Bool.not_false, Bool.not_true, Bool.and_true, Bool.and_false, Bool.false_eq_true,
      if_true, if_false, reduceCtorEq, forall_const, IsEmpty.forall_iff, and_false, false_and]
  all_goals
    split
    next e refused => simp [refused]
    next passed => simp [passed, eq_comm]

/-- After a buffer passes, a writable one was seen before or is this one. -/
theorem seen_of_checkBuffer {s : Space} {seen w : Bool} {d : Descriptor}
    (passed : checkBuffer s seen d = .ok w) : w = (seen || d.isWritable) := by
  obtain ⟨rfl, after, _⟩ := (checkBuffer_eq_ok_iff s seen d w).mp passed
  cases seen with
  | false => rfl
  | true => exact after rfl

theorem admits_nil (s : Space) (seen : Bool) : Admits s seen [] :=
  ⟨by simp, .nil, by simp⟩

theorem admits_append (s : Space) (seen : Bool) (ds es : List Descriptor) :
    Admits s seen (ds ++ es) ↔
      Admits s seen ds ∧ Admits s (seen || ds.any Descriptor.isWritable) es := by
  constructor
  · rintro ⟨after, ordered, granted⟩
    obtain ⟨front, back, across⟩ := List.pairwise_append.mp ordered
    refine ⟨⟨fun yes d m => after yes d (by simp [m]), front, fun d m => granted d (by simp [m])⟩,
      ⟨?_, back, fun d m => granted d (by simp [m])⟩⟩
    intro yes e member
    rcases Bool.or_eq_true_iff.mp yes with before | among
    · exact after before e (by simp [member])
    · obtain ⟨d, inFront, writable⟩ := List.any_eq_true.mp among
      exact across d inFront e member writable
  · rintro ⟨⟨after, ordered, granted⟩, ⟨later, ordered', granted'⟩⟩
    refine ⟨?_, List.pairwise_append.mpr ⟨ordered, ordered', ?_⟩, ?_⟩
    · intro yes d member
      rcases List.mem_append.mp member with inFront | inBack
      · exact after yes d inFront
      · exact later (by simp [yes]) d inBack
    · intro d inFront e inBack writable
      exact later (Bool.or_eq_true_iff.mpr (.inr (List.any_eq_true.mpr ⟨d, inFront, writable⟩))) e
        inBack
    · intro d member
      rcases List.mem_append.mp member with inFront | inBack
      · exact granted d inFront
      · exact granted' d inBack

theorem admits_cons (s : Space) (seen : Bool) (d : Descriptor) (ds : List Descriptor) :
    Admits s seen (d :: ds) ↔ ∃ w, checkBuffer s seen d = .ok w ∧ Admits s w ds := by
  have single : Admits s seen [d] ↔ checkBuffer s seen d = .ok d.isWritable := by
    rw [checkBuffer_eq_ok_iff]
    exact ⟨fun ⟨after, _, granted⟩ => ⟨rfl, fun yes => after yes d (by simp), granted d (by simp)⟩,
      fun ⟨_, after, granted⟩ => ⟨by simpa using after, List.pairwise_singleton _ _,
        by simpa using granted⟩⟩
  rw [← List.singleton_append, admits_append, single]
  constructor
  · rintro ⟨passed, rest⟩
    refine ⟨_, passed, ?_⟩
    rw [seen_of_checkBuffer passed]
    simpa using rest
  · rintro ⟨w, passed, rest⟩
    have writable : w = d.isWritable := ((checkBuffer_eq_ok_iff s seen d w).mp passed).1
    refine ⟨writable ▸ passed, ?_⟩
    rw [seen_of_checkBuffer passed] at rest
    simpa using rest

/-! ### The walk -/

/-- What the descriptors of a trail come to: every direct one is checked and taken, and a last one
that is indirect is entered. -/
def Collects (s : Space)
    (enter : Descriptor → Bool → List Descriptor → Except QueueError (List Descriptor)) :
    Bool → List Descriptor → List Hop → List Descriptor → Prop
  | _, _, [], _ => False
  | seen, taken, [h], out =>
    if h.desc.isIndirect then enter h.desc seen taken = .ok out
    else ∃ w, checkBuffer s seen h.desc = .ok w ∧ out = h.desc :: taken
  | seen, taken, h :: rest, out =>
    ∃ w, checkBuffer s seen h.desc = .ok w ∧ Collects s enter w (h.desc :: taken) rest out

/-- What the queue reads at the entries of a table. -/
def ReadsAt (s : Space) (table : UInt64) (i : UInt16) (d : Descriptor) : Prop :=
  s.readDescriptor (entryAddr table i) = .ok d

theorem readsAt_functional (s : Space) (table : UInt64) (i : UInt16) (d e : Descriptor)
    (one : ReadsAt s table i d) (two : ReadsAt s table i e) : d = e :=
  Except.ok.inj (one.symm.trans two)

/-- One step of a walk, at an entry that the table has. -/
theorem follow_step {s : Space} {table : UInt64} {count index : UInt16} {d : Descriptor}
    (inside : index.toNat < count.toNat) (found : ReadsAt s table index d)
    (enter : Descriptor → Bool → List Descriptor → Except QueueError (List Descriptor))
    (budget : Nat) (seen : Bool) (taken : List Descriptor) :
    follow s table count enter (budget + 1) index seen taken =
      if d.isIndirect then enter d seen taken
      else
        match checkBuffer s seen d with
        | .error e => .error e
        | .ok seen =>
          if d.hasNext then follow s table count enter budget d.next seen (d :: taken)
          else .ok (d :: taken) := by
  have within : ¬ count ≤ index := by simpa [UInt16.le_iff_toNat_le] using inside
  have read : s.readDescriptor (entryAddr table index) = .ok d := found
  simp only [follow]
  refine (if_neg within).trans ?_
  generalize s.readDescriptor (entryAddr table index) = outcome at read ⊢
  cases read
  rfl

/-- A walk succeeds exactly along the trails that its budget suffices for. -/
theorem follow_eq_ok_iff (s : Space) (table : UInt64) (count : UInt16)
    (enter : Descriptor → Bool → List Descriptor → Except QueueError (List Descriptor))
    (budget : Nat) (index : UInt16) (seen : Bool) (taken out : List Descriptor) :
    follow s table count enter budget index seen taken = .ok out ↔
      ∃ path, Trail (ReadsAt s table) count.toNat index path ∧ path.length ≤ budget ∧
        Collects s enter seen taken path out := by
  -- One step of the budget is one entry of the trail, wherever it is and whatever was taken.
  induction budget generalizing index seen taken with
  | zero =>
    constructor
    · intro done
      simp only [follow] at done
      split at done <;> cases done
    · rintro ⟨path, trail, short, _⟩
      obtain ⟨d, rest, rfl⟩ := trail.head
      simp at short
  | succ budget ih =>
    constructor
    · intro done
      simp only [follow] at done
      split at done
      · cases done
      next within =>
      have inside : index.toNat < count.toNat := by
        simpa [UInt16.le_iff_toNat_le] using within
      split at done
      · cases done
      next d found =>
      split at done
      next indirect =>
        exact ⟨[⟨index, d⟩], .stop inside found (.inr indirect), by simp,
          by simp only [Collects, indirect, if_true]; exact done⟩
      next direct =>
      have direct : d.isIndirect = false := by simpa using direct
      split at done
      · cases done
      next w passed =>
      split at done
      next linked =>
        obtain ⟨rest, trail, short, collects⟩ := (ih _ _ _).mp done
        refine ⟨⟨index, d⟩ :: rest, .step inside found direct linked trail, by simpa using short,
          ?_⟩
        obtain ⟨e, rest, rfl⟩ := trail.head
        exact ⟨w, passed, collects⟩
      next unlinked =>
        cases done
        refine ⟨[⟨index, d⟩], .stop inside found (.inl (by simpa using unlinked)), by simp, ?_⟩
        rw [Collects, if_neg (by simp [direct])]
        exact ⟨w, passed, rfl⟩
    · rintro ⟨path, trail, short, collects⟩
      cases trail with
      | stop inside found ends =>
        rw [follow_step inside found]
        rename_i d
        cases direct : d.isIndirect with
        | true => simpa [Collects, direct] using collects
        | false =>
          have unlinked : d.hasNext = false := by simpa [direct] using ends
          simp only [Collects, direct, Bool.false_eq_true, if_false] at collects
          obtain ⟨w, passed, rfl⟩ := collects
          simp [passed, unlinked]
      | step inside found direct linked onward =>
        rw [follow_step inside found]
        obtain ⟨e, rest, rfl⟩ := onward.head
        obtain ⟨w, passed, collects⟩ := collects
        have more := (ih _ _ _).mpr ⟨_, onward, by simpa using short, collects⟩
        simp [direct, passed, linked, more]

/-- The trail of a walk splits into direct descriptors, all admitted, and the last one. -/
theorem collects_append (s : Space)
    (enter : Descriptor → Bool → List Descriptor → Except QueueError (List Descriptor))
    (seen : Bool) (taken : List Descriptor) (front : List Hop) (last : Hop)
    (out : List Descriptor) :
    Collects s enter seen taken (front ++ [last]) out ↔
      Admits s seen (front.map Hop.desc) ∧
        Collects s enter (seen || (front.map Hop.desc).any Descriptor.isWritable)
          ((front.map Hop.desc).reverse ++ taken) [last] out := by
  induction front generalizing seen taken with
  | nil => simp [admits_nil]
  | cons h front ih =>
    -- `Collects` tells a last descriptor from one with a successor, so the successor has to show.
    have unfolded : Collects s enter seen taken (h :: front ++ [last]) out ↔
        ∃ w, checkBuffer s seen h.desc = .ok w ∧
          Collects s enter w (h.desc :: taken) (front ++ [last]) out := by
      cases front <;> rfl
    rw [unfolded, List.map_cons, admits_cons]
    simp only [ih, List.any_cons, List.reverse_cons, List.append_assoc, List.singleton_append]
    constructor
    · rintro ⟨w, passed, admitted, collects⟩
      refine ⟨⟨w, passed, admitted⟩, ?_⟩
      rwa [seen_of_checkBuffer passed, Bool.or_assoc] at collects
    · rintro ⟨⟨w, passed, admitted⟩, collects⟩
      refine ⟨w, passed, admitted, ?_⟩
      rwa [seen_of_checkBuffer passed, Bool.or_assoc]

/-- A walk takes all descriptors of its trail, or enters the last one after taking the others. -/
theorem collects_iff {s : Space}
    {enter : Descriptor → Bool → List Descriptor → Except QueueError (List Descriptor)}
    {first : UInt16} {path : List Hop} (trail : Trail entry count first path) (seen : Bool)
    (taken out : List Descriptor) :
    Collects s enter seen taken path out ↔
      ((∀ h ∈ path, h.desc.isIndirect = false) ∧ Admits s seen (path.map Hop.desc) ∧
        out = (path.map Hop.desc).reverse ++ taken) ∨
      ∃ front last, path = front ++ [last] ∧ last.desc.isIndirect = true ∧
        Admits s seen (front.map Hop.desc) ∧
        enter last.desc (seen || (front.map Hop.desc).any Descriptor.isWritable)
          ((front.map Hop.desc).reverse ++ taken) = .ok out := by
  -- Only the last descriptor of a trail can be indirect, so that is where the cases part.
  obtain rfl | ⟨front, last, rfl⟩ := path.eq_nil_or_concat'
  · obtain ⟨d, rest, bad⟩ := trail.head
    cases bad
  rw [collects_append]
  cases kind : last.desc.isIndirect with
  | true =>
    rw [Collects, if_pos kind]
    constructor
    · rintro ⟨admitted, entered⟩
      exact .inr ⟨front, last, rfl, kind, admitted, entered⟩
    · rintro (⟨all, _⟩ | ⟨front', last', same, _, admitted, entered⟩)
      · simp [all last] at kind
      · obtain ⟨rfl, tail⟩ := List.append_inj' same rfl
        cases tail
        exact ⟨admitted, entered⟩
  | false =>
    rw [Collects, if_neg (by simp [kind])]
    have whole : Admits s seen ((front ++ [last]).map Hop.desc) ↔
        Admits s seen (front.map Hop.desc) ∧ ∃ w, checkBuffer s
          (seen || (front.map Hop.desc).any Descriptor.isWritable) last.desc = .ok w := by
      rw [List.map_append, admits_append, List.map_singleton, admits_cons]
      simp only [admits_nil, and_true]
    constructor
    · rintro ⟨admitted, w, passed, rfl⟩
      refine .inl ⟨?_, whole.mpr ⟨admitted, w, passed⟩, by simp⟩
      intro h member
      rcases List.mem_append.mp member with inFront | isLast
      · exact trail.direct_of_front h inFront
      · rw [List.mem_singleton.mp isLast]
        exact kind
    · rintro (⟨_, admitted, rfl⟩ | ⟨front', last', same, indirect, _⟩)
      · obtain ⟨admitted, w, passed⟩ := whole.mp admitted
        exact ⟨admitted, w, passed, by simp⟩
      · obtain ⟨rfl, tail⟩ := List.append_inj' same rfl
        cases tail
        rw [kind] at indirect
        cases indirect

end VirtioMmio.Queue
