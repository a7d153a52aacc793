import Settings.Proofs.Script.Shown
import Settings.Script.Stringify

/-!
# The text of a script value keeps to the grammar

Whatever has a text has one that spells a tree: a surrogate without its partner is
written as the escape of a unit, a number that is not finite as null, and what has no
text is left out or null. What the texts of all its numbers have in common the literals of
the tree have in common: if all numbers of a value are safe integers or not finite, they are
plain integers.
-/

namespace Settings.Script

open Text (Units)
open Binary (double)

/-! ### The numbers of a value -/

mutual

/-- The numbers in a value, in what it offers in its place too. -/
def Value.numbers : Value → List (Binary double)
  | .number x => [x]
  | .array items => numbersOfItems items
  | .object properties => numbersOfProperties properties
  | .standIn value => value.numbers
  | _ => []

/-- The numbers in items. -/
def numbersOfItems : List Value → List (Binary double)
  | [] => []
  | item :: rest => item.numbers ++ numbersOfItems rest

/-- The numbers in the values of properties. -/
def numbersOfProperties : List (Units × Value) → List (Binary double)
  | [] => []
  | (_, value) :: rest => value.numbers ++ numbersOfProperties rest

end

/-- Every number in a value is a safe integer or not finite. -/
def Value.Safe (v : Value) : Prop :=
  ∀ x ∈ v.numbers, x.Safe

/-- The numbers in items are those in each of them. -/
theorem forall_numbersOfItems_iff {P : Binary double → Prop} {items : List Value} :
    (∀ x ∈ numbersOfItems items, P x) ↔ ∀ v ∈ items, ∀ x ∈ v.numbers, P x := by
  induction items with
  | nil => exact ⟨fun _ v hv => absurd hv List.not_mem_nil, fun _ => nofun⟩
  | cons v vs ih => rw [numbersOfItems, List.forall_mem_append, ih, List.forall_mem_cons]

/-- The numbers in properties are those in the value of each. -/
theorem forall_numbersOfProperties_iff {P : Binary double → Prop}
    {properties : List (Units × Value)} :
    (∀ x ∈ numbersOfProperties properties, P x) ↔
      ∀ p ∈ properties, ∀ x ∈ p.2.numbers, P x := by
  induction properties with
  | nil => exact ⟨fun _ p hp => absurd hp List.not_mem_nil, fun _ => nofun⟩
  | cons p ps ih =>
    obtain ⟨key, value⟩ := p
    rw [numbersOfProperties, List.forall_mem_append, ih, List.forall_mem_cons]

/-- What holds of values without parts, and of others when it holds of their parts,
holds of every value. -/
theorem Value.induct {P : Value → Prop} (undefined : P .undefined) (null : P .null)
    (bool : ∀ b, P (.bool b)) (number : ∀ x, P (.number x)) (bigint : ∀ n, P (.bigint n))
    (string : ∀ s, P (.string s)) (symbol : ∀ d, P (.symbol d))
    (function : ∀ name, P (.function name))
    (array : ∀ items, (∀ v ∈ items, P v) → P (.array items))
    (object : ∀ properties : List (Units × Value), (∀ p ∈ properties, P p.2) →
      P (.object properties))
    (error : ∀ name message, P (.error name message))
    (standIn : ∀ value, P value → P (.standIn value))
    (raising : ∀ thrown, P thrown → P (.raising thrown)) (value : Value) : P value :=
  @Value.rec P (fun items => ∀ v ∈ items, P v) (fun properties => ∀ p ∈ properties, P p.2)
    (fun p => P p.2) undefined null bool number bigint string symbol function array object
    error standIn raising
    (fun _ h => absurd h List.not_mem_nil)
    (fun _ _ hv hvs => List.forall_mem_cons.mpr ⟨hv, hvs⟩)
    (fun _ h => absurd h List.not_mem_nil)
    (fun _ _ hp hps => List.forall_mem_cons.mpr ⟨hp, hps⟩)
    (fun _ _ h => h) value

/-! ### Strings -/

/-- An escaped unit is a piece. -/
theorem pieceText_unitEscape (unit : UInt16) :
    Json.PieceText (unitEscape unit) (.unit unit.toNat) :=
  .unit (Text.readQuad_hexQuad unit.toNat_lt)

/-- A unit that is no surrogate is that of its character. -/
theorem unitsOfChar_ofNat {unit : UInt16}
    (h : ¬(Text.opensPair unit || Text.closesPair unit) = true) :
    Text.unitsOfChar (Char.ofNat unit.toNat) = [unit] := by
  have hplain : unit.toNat < 0xD800 ∨ 0xE000 ≤ unit.toNat ∧ unit.toNat < 0x10000 := by
    have hlt : unit.toNat < 0x10000 := unit.toNat_lt
    simp only [Text.opensPair, Text.closesPair, Bool.or_eq_true, Bool.and_eq_true,
      decide_eq_true_eq] at h
    omega
  rw [← flatMap_pieceUnits_charOf (.unit hplain)]
  simp only [List.flatMap_singleton, pieceUnits, Nat.toUInt16_eq, UInt16.ofNat_toNat]

/-- A pair of surrogates is that of its character. -/
theorem unitsOfChar_pairValue {high low : UInt16}
    (h : (Text.opensPair high && Text.closesPair low) = true) :
    Text.unitsOfChar (Text.pairValue high.toNat low.toNat) = [high, low] := by
  simp only [Text.opensPair, Text.closesPair, Bool.and_eq_true, decide_eq_true_eq] at h
  rw [← flatMap_pieceUnits_charOf (.pair h.1 h.2)]
  simp only [List.flatMap_cons, List.flatMap_nil, pieceUnits, Nat.toUInt16_eq,
    UInt16.ofNat_toNat, List.cons_append, List.nil_append]

/-- What is written inside quotes is a sequence of pieces that have the units written. -/
theorem exists_piecesText (units : Units) :
    ∃ ps, Json.PiecesText (quoteBody units) ps ∧ ps.flatMap pieceUnits = units := by
  induction units using quoteBody.induct with
  | case1 => exact ⟨[], .nil, rfl⟩
  | case2 unit h =>
    rw [quoteBody, if_pos h]
    refine ⟨_, (pieceText_unitEscape unit).single, ?_⟩
    simp only [List.flatMap_singleton, pieceUnits, Nat.toUInt16_eq, UInt16.ofNat_toNat]
  | case3 unit h =>
    rw [quoteBody, if_neg h]
    refine ⟨_, (Json.pieceText_escapeChar _).single, ?_⟩
    rw [List.flatMap_singleton, pieceUnits_escaped, unitsOfChar_ofNat h]
  | case4 first second rest h ih =>
    obtain ⟨ps, hps, hunits⟩ := ih
    rw [quoteBody, if_pos h]
    refine ⟨_, .cons (Json.pieceText_escapeChar _) hps, ?_⟩
    rw [List.flatMap_cons, pieceUnits_escaped, unitsOfChar_pairValue h, hunits, List.cons_append,
      List.singleton_append]
  | case5 first second rest h h' ih =>
    obtain ⟨ps, hps, hunits⟩ := ih
    rw [quoteBody, if_neg h, if_pos h']
    refine ⟨_, .cons (pieceText_unitEscape first) hps, ?_⟩
    rw [List.flatMap_cons, hunits, pieceUnits, Nat.toUInt16_eq, UInt16.ofNat_toNat,
      List.singleton_append]
  | case6 first second rest h h' ih =>
    obtain ⟨ps, hps, hunits⟩ := ih
    rw [quoteBody, if_neg h, if_neg h']
    refine ⟨_, .cons (Json.pieceText_escapeChar _) hps, ?_⟩
    rw [List.flatMap_cons, pieceUnits_escaped, unitsOfChar_ofNat h', hunits,
      List.singleton_append]

/-! ### Values -/

section Over

variable {P : Json.Literal → Prop}

/-- A text spells a tree whose number literals have a property. -/
def SpellsOver (P : Json.Literal → Prop) (text : List Char) (tree : Json.Tree) : Prop :=
  Json.Spells text tree ∧ ∀ l ∈ tree.literals, P l

/-- The text of a value, if it has one, spells a tree whose number literals have a
property. -/
def WrittenOver (P : Json.Literal → Prop) (v : Value) : Prop :=
  ∀ offered text, textOf offered v = .ok (some text) → ∃ tree, SpellsOver P text tree

/-- The word for null has no number. -/
theorem spellsOver_null : SpellsOver P ['n', 'u', 'l', 'l'] .null :=
  ⟨.null, nofun⟩

/-- Empty braces have no number. -/
theorem spellsOver_braces : SpellsOver P ['{', '}'] (.object []) :=
  ⟨@Json.Spells.object [] [] (.blank nofun), nofun⟩

/-- The texts of items spell trees. -/
theorem exists_spellsOver_items {items : List Value} (h : ∀ v ∈ items, WrittenOver P v)
    {parts : List (List Char)} (hparts : textsOfItems items = .ok parts) :
    ∃ trees, List.Forall₂ (SpellsOver P) parts trees := by
  induction items generalizing parts with
  | nil =>
    cases hparts
    exact ⟨[], .nil⟩
  | cons v vs ih =>
    obtain ⟨hv, hvs⟩ := List.forall_mem_cons.mp h
    unfold textsOfItems at hparts
    obtain ⟨part, hpart, hmore⟩ := Json.bind_ok hparts
    obtain ⟨rest, hrest, he⟩ := Json.bind_ok hmore
    cases he
    obtain ⟨trees, htrees⟩ := ih hvs hrest
    cases part with
    | none => exact ⟨_, .cons spellsOver_null htrees⟩
    | some text =>
      obtain ⟨tree, htree⟩ := hv false text hpart
      exact ⟨_, .cons htree htrees⟩

/-- The texts of properties spell entries whose values are trees. -/
theorem exists_spellsOver_properties {properties : List (Units × Value)}
    (h : ∀ p ∈ properties, WrittenOver P p.2) {parts : List (List Char)}
    (hparts : textsOfProperties properties = .ok parts) :
    ∃ entries, List.Forall₂ (Json.MemberText (SpellsOver P)) parts entries := by
  induction properties generalizing parts with
  | nil =>
    cases hparts
    exact ⟨[], .nil⟩
  | cons p ps ih =>
    obtain ⟨key, value⟩ := p
    obtain ⟨hv, hps⟩ := List.forall_mem_cons.mp h
    unfold textsOfProperties at hparts
    obtain ⟨part, hpart, hmore⟩ := Json.bind_ok hparts
    obtain ⟨rest, hrest, he⟩ := Json.bind_ok hmore
    obtain ⟨entries, hentries⟩ := ih hps hrest
    cases part with
    | none =>
      cases he
      exact ⟨entries, hentries⟩
    | some text =>
      cases he
      obtain ⟨pieces, hpieces, -⟩ := exists_piecesText key
      obtain ⟨tree, htree⟩ := hv false text hpart
      exact ⟨(pieces, tree) :: entries, .cons (.bare hpieces htree) hentries⟩

/-- A member of trees over a property is a member of trees, and its value is one over the
property. -/
theorem memberText_spellsOver {text : List Char} {e : List Json.Piece × Json.Tree}
    (h : Json.MemberText (SpellsOver P) text e) :
    Json.MemberText Json.Spells text e ∧ ∀ l ∈ e.2.literals, P l := by
  cases h with
  | mk hk hb hx =>
    cases hx with
    | mk hi hs => exact ⟨.mk hk hb (.mk hi hs.1), hs.2⟩

/-- What a relation says of two elements and of the second one says, one by one, of
lists. -/
theorem forall₂_split {α β : Type} {R S : α → β → Prop} {Q : β → Prop} {xs : List α}
    {ys : List β} (hall : List.Forall₂ S xs ys) (h : ∀ x y, S x y → R x y ∧ Q y) :
    List.Forall₂ R xs ys ∧ ∀ y ∈ ys, Q y := by
  induction hall with
  | nil => exact ⟨.nil, nofun⟩
  | cons hxy _ ih =>
    obtain ⟨hr, hq⟩ := h _ _ hxy
    exact ⟨.cons hr ih.1, List.forall_mem_cons.mpr ⟨hq, ih.2⟩⟩

/-- If the texts of all numbers of a value spell literals with a property, its text spells a
tree of such literals. -/
theorem writtenOver {v : Value}
    (h : ∀ x ∈ v.numbers, ∃ tree, SpellsOver P (numberText x) tree) : WrittenOver P v := by
  induction v using Value.induct with
  | undefined | bigint | symbol | function =>
    intro offered text ht
    cases ht
  | null =>
    intro offered text ht
    cases ht
    exact ⟨_, spellsOver_null⟩
  | bool b =>
    intro offered text ht
    cases b with
    | true => cases ht; exact ⟨_, .yes, nofun⟩
    | false => cases ht; exact ⟨_, .no, nofun⟩
  | number x =>
    intro offered text ht
    cases ht
    exact h x (List.mem_singleton.mpr rfl)
  | string s =>
    intro offered text ht
    cases ht
    obtain ⟨ps, hps, -⟩ := exists_piecesText s
    exact ⟨.string ps, .string hps, nofun⟩
  | array items ih =>
    intro offered text ht
    rw [Value.numbers, forall_numbersOfItems_iff] at h
    unfold textOf at ht
    obtain ⟨parts, hparts, he⟩ := Json.bind_ok ht
    cases he
    obtain ⟨trees, htrees⟩ := exists_spellsOver_items (fun v hv => ih v hv (h v hv)) hparts
    obtain ⟨hspells, hover⟩ := forall₂_split htrees fun _ _ hs => hs
    refine ⟨.array trees, .array (Json.inside_joined hspells), ?_⟩
    rw [Json.Tree.literals, Json.forall_literalsOfTrees_iff]
    exact hover
  | object properties ih =>
    intro offered text ht
    rw [Value.numbers, forall_numbersOfProperties_iff] at h
    unfold textOf at ht
    obtain ⟨parts, hparts, he⟩ := Json.bind_ok ht
    cases he
    obtain ⟨entries, hentries⟩ :=
      exists_spellsOver_properties (fun p hp => ih p hp (h p hp)) hparts
    obtain ⟨hspells, hover⟩ := forall₂_split hentries fun _ _ => memberText_spellsOver
    refine ⟨.object entries, .object (Json.inside_joined hspells), ?_⟩
    rw [Json.Tree.literals, Json.forall_literalsOfEntries_iff]
    exact hover
  | error name message =>
    intro offered text ht
    cases ht
    exact ⟨_, spellsOver_braces⟩
  | standIn value ih =>
    intro offered text ht
    unfold textOf at ht
    split at ht
    · cases ht
      exact ⟨_, spellsOver_braces⟩
    · exact ih h true text ht
  | raising thrown =>
    intro offered text ht
    unfold textOf at ht
    split at ht
    · cases ht
      exact ⟨_, spellsOver_braces⟩
    · cases ht

end Over

/-- A safe number is written as a plain integer, one that is not finite as null. -/
theorem exists_spellsPlain_number {x : Binary double} (h : x.Safe) :
    ∃ tree, SpellsOver Json.Literal.Plain (numberText x) tree := by
  cases x with
  | nan => exact ⟨_, spellsOver_null⟩
  | infinite negative => exact ⟨_, spellsOver_null⟩
  | finite x =>
    obtain ⟨l, htext, hplain⟩ := Json.numberText_of_safe h
    exact ⟨.number l, .number htext, List.forall_mem_singleton.mpr hplain⟩

/-- If all numbers of a value are safe integers or not finite, its text spells a tree of
plain integers. -/
theorem writtenPlain {v : Value} (h : v.Safe) : WrittenOver Json.Literal.Plain v :=
  writtenOver fun x hx => exists_spellsPlain_number (h x hx)

/-- Whatever numbers a value has, its text, if it has one, spells a tree. -/
theorem exists_spells_of_textOf {v : Value} {offered : Bool} {text : List Char}
    (h : textOf offered v = .ok (some text)) : ∃ tree, Json.Spells text tree := by
  have hnumbers : ∀ x ∈ v.numbers, ∃ tree, SpellsOver (fun _ => True) (numberText x) tree := by
    intro x _
    cases x with
    | nan => exact ⟨_, spellsOver_null⟩
    | infinite negative => exact ⟨_, spellsOver_null⟩
    | finite x =>
      have htext := (Json.scriptLiteral_proper x).numberText
      rw [Json.scriptLiteral_text] at htext
      exact ⟨.number _, .number htext, fun _ _ => trivial⟩
  obtain ⟨tree, hspells, -⟩ := writtenOver hnumbers offered text h
  exact ⟨tree, hspells⟩

end Settings.Script
