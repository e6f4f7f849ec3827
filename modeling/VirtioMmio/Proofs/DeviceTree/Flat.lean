import VirtioMmio.DeviceTree.Flat.Reader
import VirtioMmio.Proofs.DeviceTree.Rules

/-!
The plain reader goes by the rules of the format, in trees of any depth. One lemma for each thing
that can stand in a structure block says which token is read there; the walk over tokens then takes
the same steps as the rules. Main result: `reader_follows`.
-/

namespace VirtioMmio.DeviceTree.Flat

open BigEndian (readCell)

/-! ### Tokens -/

variable {bytes name padding rest after strings : List UInt8} {t : Token}

theorem readName_append (isName : IsName name) (rest : List UInt8) :
    readName (name ++ 0 :: rest) = name := by
  have all : ∀ b ∈ name, (b != 0) = true := fun b member => by simpa using (isName b member).1
  rw [readName, List.takeWhile_append_of_pos all]
  simp

theorem readToken_beginNode (isName : IsName name) (pads : Pads padding (name ++ [0]))
    (rest : List UInt8) :
    readToken (cell 1 ++ (name ++ 0 :: (padding ++ rest))) = some (.beginNode, rest) := by
  have le := le_padded (name.length + 1)
  rw [Pads, List.length_append, List.length_singleton] at pads
  have whole : (name ++ 0 :: padding).length = padded (name.length + 1) := by
    rw [List.length_append, List.length_cons, pads]
    omega
  have behind : (name ++ 0 :: (padding ++ rest)).drop (padded (name.length + 1)) =
      rest := by
    rw [← List.cons_append, ← List.append_assoc, List.drop_left' whole]
  have read := readName_append isName (padding ++ rest)
  have inside : name.length < (name ++ 0 :: (padding ++ rest)).length := by simp
  simp only [readToken, readCell_cell (v := 1) (by decide), Option.map_some, readBeginNode, read,
    inside, if_true, behind, Option.getD_some]

theorem readToken_property {place : Nat} {value : List UInt8} (placeFits : place < 2 ^ 32)
    (short : value.length < 2 ^ 32) (pads : Pads padding value) (rest : List UInt8) :
    readToken (cell 3 ++ (cell value.length ++ (cell place ++ (value ++ (padding ++ rest))))) =
      some (.property place value, rest) := by
  have le := le_padded value.length
  have whole : (value ++ padding).length = padded value.length := by
    rw [List.length_append, pads]
    omega
  have behind : (value ++ (padding ++ rest)).drop (padded value.length) = rest := by
    rw [← List.append_assoc, List.drop_left' whole]
  have inside : value.length ≤ (value ++ (padding ++ rest)).length := by simp
  simp only [readToken, readCell_cell (v := 3) (by decide), Option.map_some, readProperty,
    readCell_cell short, readCell_cell placeFits, inside, if_true, List.take_left' rfl, behind,
    Option.getD_some]

/-- Which token may be read where there is a code. -/
inductive OfCode : Nat → Token → Prop
  | beginNode : OfCode 1 .beginNode
  | endNode : OfCode 2 .endNode
  | property (place : Nat) (value : List UInt8) : OfCode 3 (.property place value)
  | nop : OfCode 4 .nop
  | other (code : Nat) : OfCode code (.other code)
  | truncated (code : Nat) : OfCode code .truncated

theorem exists_readToken {code : Nat} (fits : code < 2 ^ 32) (rest : List UInt8) :
    ∃ t after, readToken (cell code ++ rest) = some (t, after) ∧ OfCode code t := by
  simp only [readToken, readCell_cell fits, Option.map_some, Option.some.injEq]
  split
  next =>
    cases read : readBeginNode rest with
    | none => exact ⟨_, _, rfl, .truncated _⟩
    | some found =>
      unfold readBeginNode at read
      dsimp only at read
      split at read
      · cases read
        exact ⟨_, _, rfl, .beginNode⟩
      · cases read
  next => exact ⟨_, _, rfl, .endNode⟩
  next =>
    cases read : readProperty rest with
    | none => exact ⟨_, _, rfl, .truncated _⟩
    | some found =>
      unfold readProperty at read
      repeat' split at read
      all_goals cases read
      exact ⟨_, _, rfl, .property _ _⟩
  next => exact ⟨_, _, rfl, .nop⟩
  next => exact ⟨_, _, rfl, .other _⟩

theorem length_of_readCell {v : Nat} (read : readCell bytes = some (v, after)) :
    bytes.length = after.length + 4 := by
  unfold readCell at read
  split at read
  next whole =>
    cases read
    rw [List.length_drop]
    omega
  · cases read

theorem length_le_of_readBeginNode (read : readBeginNode bytes = some (t, after)) :
    after.length ≤ bytes.length := by
  unfold readBeginNode at read
  dsimp only at read
  split at read
  · cases read
    rw [List.length_drop]
    exact Nat.sub_le _ _
  · cases read

theorem length_le_of_readProperty (read : readProperty bytes = some (t, after)) :
    after.length ≤ bytes.length := by
  unfold readProperty at read
  split at read
  · cases read
  next len behindLen first =>
  split at read
  · cases read
  next place behindPlace second =>
  split at read
  · cases read
    have firstLength := length_of_readCell first
    have secondLength := length_of_readCell second
    rw [List.length_drop]
    omega
  · cases read

/-- A token takes some bytes. -/
theorem length_lt_of_readToken (read : readToken bytes = some (t, after)) :
    after.length < bytes.length := by
  obtain ⟨⟨code, rest⟩, cell, read⟩ := Option.map_eq_some_iff.mp read
  have length := length_of_readCell cell
  -- A node's beginning or a property may turn out truncated; then nothing is left at all.
  have content {found : Option (Token × List UInt8)}
      (read : found.getD (.truncated, []) = (t, after))
      (shorter : ∀ t' after', found = some (t', after') → after'.length ≤ rest.length) :
      after.length < bytes.length := by
    cases found with
    | none =>
      cases read
      rw [length]
      exact Nat.succ_pos _
    | some pair =>
      have le := shorter t after (congrArg some read)
      omega
  dsimp only at read
  split at read
  · exact content read fun _ _ => length_le_of_readBeginNode
  · cases read
    omega
  · exact content read fun _ _ => length_le_of_readProperty
  all_goals
    cases read
    omega

/-- Fuel for every byte is enough for every token. -/
theorem readTokensWith_eq {fuel : Nat} (enough : bytes.length ≤ fuel) :
    readTokensWith fuel bytes = readTokens bytes := by
  have same (fuel fuel' : Nat) {bytes : List UInt8} (enough : bytes.length ≤ fuel)
      (enough' : bytes.length ≤ fuel') :
      readTokensWith fuel bytes = readTokensWith fuel' bytes := by
    -- One token costs one unit of either fuel and at least one byte.
    induction fuel generalizing fuel' bytes with
    | zero =>
      obtain rfl := List.length_eq_zero_iff.mp (Nat.le_zero.mp enough)
      cases fuel' <;> rfl
    | succ fuel ih =>
      cases fuel' with
      | zero =>
        obtain rfl := List.length_eq_zero_iff.mp (Nat.le_zero.mp enough')
        rfl
      | succ fuel' =>
        rw [readTokensWith, readTokensWith]
        cases read : readToken bytes with
        | none => rfl
        | some pair =>
          have shorter := length_lt_of_readToken read
          exact congrArg (pair.1 :: ·) (ih fuel' (by omega) (by omega))
  exact same _ _ enough (Nat.le_refl _)

theorem readTokens_of_readToken (read : readToken bytes = some (t, after)) :
    readTokens bytes = t :: readTokens after := by
  have shorter := length_lt_of_readToken read
  obtain ⟨fuel, fuelled⟩ := Nat.exists_eq_succ_of_ne_zero (Nat.ne_of_gt (Nat.zero_lt_of_lt shorter))
  rw [readTokens, fuelled, readTokensWith, read]
  exact congrArg (t :: ·) (readTokensWith_eq (by omega))

/-! ### Properties -/

variable {properties : List Property}

/-- A list of properties is read as such, and behind it the next token is no property. -/
structure Skips (strings bytes : List UInt8) (properties : List Property) (after : List UInt8) :
    Prop where
  properties : propertiesOf strings (readTokens bytes) = properties
  front : (readTokens bytes).dropWhile Token.isNop = readTokens bytes
  rest : (readTokens bytes).dropWhile Token.isProperty = readTokens after
  more : readTokens after ≠ []

theorem skips_of_lists (lists : Lists strings bytes properties after) :
    Skips strings bytes properties after := by
  induction lists with
  | done rest fits other =>
    obtain ⟨t, after, read, ofCode⟩ := exists_readToken fits rest
    have tokens := readTokens_of_readToken read
    -- The code says which token it can be, so neither of those two.
    have plain : t.isNop = false ∧ t.isProperty = false := by
      cases ofCode with
      | property => exact absurd rfl other.1
      | nop => exact absurd rfl other.2
      | _ => exact ⟨rfl, rfl⟩
    constructor <;> simp [tokens, propertiesOf, plain]
  | @property place p padding rest after properties name short pads others ih =>
    obtain ⟨before, behind, table, length⟩ := name.found
    have tokens := readTokens_of_readToken (readToken_property name.fits short pads rest)
    have named : readName (strings.drop place) = p.name := by
      rw [table, List.drop_left' length, readName_append name.isName]
    constructor
    case properties =>
      rw [tokens]
      have first : propertiesOf strings (.property place p.value :: readTokens rest) =
          ⟨readName (strings.drop place), p.value⟩ :: propertiesOf strings (readTokens rest) := rfl
      rw [first, named, ih.properties]
    case front =>
      rw [tokens]
      rfl
    case rest =>
      rw [tokens]
      exact ih.rest
    case more => exact ih.more

/-! ### Walk -/

variable {ancestors : List (List Property)} {stanzas : List Stanza} {fuel depth : Nat}

theorem walkWith_endNode (strings : List UInt8) (fuel : Nat) (properties : List Property)
    (ancestors : List (List Property)) (tokens : List Token) :
    walkWith strings fuel (properties :: ancestors) (.endNode :: tokens) =
      walkWith strings fuel ancestors tokens := by
  cases fuel <;> rfl

theorem walkWith_beginNode (strings : List UInt8) (fuel : Nat) (ancestors : List (List Property))
    {inner after : List Token}
    (behind : (inner.dropWhile Token.isNop).dropWhile Token.isProperty = after)
    (more : after ≠ []) :
    walkWith strings (fuel + 1) ancestors (.beginNode :: inner) =
      ⟨propertiesOf strings inner, ancestors.head?⟩ ::
        walkWith strings fuel (propertiesOf strings inner :: ancestors) after := by
  have step : walkWith strings (fuel + 1) ancestors (.beginNode :: inner) =
      if ((inner.dropWhile Token.isNop).dropWhile Token.isProperty).isEmpty then []
      else ⟨propertiesOf strings inner, ancestors.head?⟩ ::
        walkWith strings fuel (propertiesOf strings inner :: ancestors)
          ((inner.dropWhile Token.isNop).dropWhile Token.isProperty) := rfl
  rw [step, behind, if_neg (by simpa using more)]

/-- Any other token ends the walk. -/
theorem walkWith_ofCode {code : Nat} (ofCode : OfCode code t)
    (other : code ≠ 1 ∧ code ≠ 2 ∧ code ≠ 4) (strings : List UInt8) (fuel : Nat)
    (ancestors : List (List Property)) (tokens : List Token) :
    walkWith strings fuel ancestors (t :: tokens) = [] := by
  obtain ⟨node, leave, nop⟩ := other
  cases fuel with
  | zero => rfl
  | succ fuel =>
    cases ofCode with
    | beginNode => exact absurd rfl node
    | endNode => exact absurd rfl leave
    | nop => exact absurd rfl nop
    | _ => rfl

/-- The walk over tokens takes the steps of the rules. -/
theorem walkWith_of_walk (walk : Walk strings depth ancestors bytes stanzas)
    (enough : (readTokens bytes).length ≤ fuel) :
    walkWith strings fuel ancestors (readTokens bytes) = stanzas := by
  -- Fuel is spent on nodes only, and every node takes at least one token.
  induction walk generalizing fuel with
  | @node ancestors name padding bytes after properties stanzas shallow isName pads lists walk ih =>
    have skips := skips_of_lists lists
    have behind : ((readTokens bytes).dropWhile Token.isNop).dropWhile Token.isProperty =
        readTokens after := by
      rw [skips.front, skips.rest]
    rw [readTokens_of_readToken (readToken_beginNode isName pads bytes)] at enough ⊢
    cases fuel with
    | zero => cases enough
    | succ fuel =>
      have fewer : (readTokens after).length ≤ (readTokens bytes).length := by
        rw [← skips.rest]
        exact (List.dropWhile_sublist _).length_le
      have rest := ih (Nat.le_trans fewer (Nat.le_of_succ_le_succ enough))
      rw [walkWith_beginNode strings fuel ancestors behind skips.more, skips.properties, rest]
  | @leave properties ancestors rest stanzas walk ih =>
    have read : readToken (cell 2 ++ rest) = some (.endNode, rest) := by
      simp only [readToken, readCell_cell (v := 2) (by decide), Option.map_some]
    rw [readTokens_of_readToken read] at enough ⊢
    rw [walkWith_endNode]
    exact ih (Nat.le_of_succ_le enough)
  | stop rest fits other =>
    obtain ⟨t, after, read, ofCode⟩ := exists_readToken fits rest
    rw [readTokens_of_readToken read]
    exact walkWith_ofCode ofCode other _ _ _ _

/-! ### Answers -/

theorem ofBytes?_of_carries {body : List UInt8} (carries : Carries bytes body strings) :
    Blob.ofBytes? bytes = some ⟨body, strings⟩ := by
  have whole := carries.header
  have size := carries.whole
  simp [Blob.ofBytes?, carries.marked, carries.body, carries.strings, whole, size]

theorem cellCount_of_laysDown {name : String} {standard cells : Nat}
    (laysDown : LaysDown properties name standard cells) :
    cellCount properties name standard = cells := by
  cases laysDown with
  | standard absent => rw [cellCount, absent]
  | own rest fits whole value =>
    rw [cellCount, value]
    dsimp only
    rw [readCell_cell fits]
    rfl

theorem readCells_append {cells : Nat} {front : List UInt8} (length : front.length = 4 * cells)
    (rest : List UInt8) :
    readCells cells (front ++ rest) = some (BigEndian.decode front, rest) := by
  have whole : 4 * cells ≤ (front ++ rest).length := by
    rw [List.length_append, length]
    exact Nat.le_add_right _ _
  rw [readCells, if_pos whole, List.take_left' length, List.drop_left' length]

theorem readRegion_of_beginsWith {value : List UInt8} {addressCells sizeCells : Nat}
    {region : Region} (begins : BeginsWith value addressCells sizeCells region) :
    readRegion addressCells sizeCells value = some region := by
  obtain ⟨⟨some, few⟩, sizeFew, address, size, rest, rfl, addressLength, sizeLength, base,
    length⟩ := begins
  have known : ¬ (decide (addressCells = 0) || decide (2 < addressCells) ||
      decide (2 < sizeCells)) = true := by
    simp only [Bool.or_eq_true, decide_eq_true_eq]
    omega
  obtain ⟨_, _⟩ := region
  dsimp only at base length
  rw [readRegion, if_neg known, readCells_append addressLength]
  dsimp only
  rw [readCells_append sizeLength, base, length]
  split <;> rfl

theorem answers_answer (s : Stanza) : Answers s (answer s) where
  property name := rfl
  compatible := rfl
  reg addresses sizes found begins := by
    rw [answer, regionOf, cellCount_of_laysDown addresses, cellCount_of_laysDown sizes, found]
    exact readRegion_of_beginsWith begins

theorem reader_nodes? (bytes : List UInt8) :
    reader.nodes? bytes = (Blob.ofBytes? bytes).map fun b => b.stanzas.map answer := rfl

theorem reader_follows (depth : Nat) : reader.Follows depth where
  nodes {bytes body strings stanzas} carries walk := by
    have read : (Blob.stanzas ⟨body, strings⟩) = stanzas :=
      walkWith_of_walk walk (Nat.le_refl _)
    have answered : List.Forall₂ Answers stanzas (stanzas.map answer) :=
      List.forall₂_map_right_iff.mpr (List.forall₂_same.mpr fun s _ => answers_answer s)
    refine ⟨_, ?_, answered⟩
    rw [reader_nodes?, ofBytes?_of_carries carries, Option.map_some, read]

end VirtioMmio.DeviceTree.Flat
