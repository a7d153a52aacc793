import Settings.Proofs.Json.Parsing
import Settings.Script.Stringify

/-!
# What is written spells a tree

The text of a stored value keeps to the grammar: characters are pieces, a number is its
literal, and texts in a row with commas between them stand inside brackets. The tree of
a value says what its text spells, so that every reader of the grammar can be asked what
it makes of that text.
-/

namespace Settings.Json

/-! ### Characters and numbers -/

/-- The piece that is written for a character. -/
def escapedPiece (c : Char) : Piece :=
  if c.toNat < 32 ∧ c ∉ ['\x08', '\t', '\n', '\x0c', '\r'] then .unit c.toNat else .char c

/-- A character is written as its piece. -/
theorem pieceText_escapeChar (c : Char) : PieceText (escapeChar c) (escapedPiece c) := by
  unfold escapeChar
  split
  · next h => subst h; exact .short (by decide)
  split
  · next h => subst h; exact .short (by decide)
  split
  · next h => subst h; exact .short (by decide)
  split
  · next h => subst h; exact .short (by decide)
  split
  · next h => subst h; exact .short (by decide)
  split
  · next h => subst h; exact .short (by decide)
  split
  · next h => subst h; exact .short (by decide)
  · next hq hs hb ht hn hf hr =>
    have hnot : c ∉ ['\x08', '\t', '\n', '\x0c', '\r'] := by simp [hb, ht, hn, hf, hr]
    unfold escapedPiece
    split
    · next hc =>
      rw [if_pos ⟨hc, hnot⟩]
      exact .unit (Text.readQuad_hexQuad (by omega))
    · next hc =>
      rw [if_neg fun h => hc h.1]
      exact .raw hq hs (Nat.not_lt.mp hc)

/-- The characters of a string are written as their pieces. -/
theorem piecesText_escaped (chars : List Char) :
    PiecesText (chars.flatMap escapeChar) (chars.map escapedPiece) := by
  induction chars with
  | nil => exact .nil
  | cons c chars ih =>
    rw [List.flatMap_cons, List.map_cons]
    exact .cons (pieceText_escapeChar c) ih

/-- The text of an exponent spells it. -/
theorem powerText_spelled (power : Option Power) : PowerText (powerText power) power := by
  cases power with
  | none => exact .none
  | some p =>
    obtain ⟨negative, ds⟩ := p
    cases negative with
    | false => exact .plus (Or.inl rfl)
    | true => exact .minus (Or.inl rfl)

/-- The text of a literal that keeps to the grammar spells it. -/
theorem Literal.Proper.numberText {l : Literal} (h : l.Proper) : NumberText l.text l :=
  .mk h (powerText_spelled l.power)

/-! ### Rows -/

variable {γ : Type} {One : List Char → γ → Prop}

/-- Texts with commas between them are a row. -/
theorem row_joined {text : List Char} {texts : List (List Char)} {x : γ} {xs : List γ}
    (hx : One text x) (hxs : List.Forall₂ One texts xs) :
    Row (Led One) (Script.joined (text :: texts)) (x :: xs) := by
  induction hxs generalizing text x with
  | nil =>
    have hjoined : Script.joined [text] = text := List.append_nil text
    rw [hjoined]
    exact .last (.bare hx)
  | @cons next y texts ys hy _ ih =>
    have hjoined : Script.joined (text :: next :: texts) =
        text ++ ([] ++ ',' :: Script.joined (next :: texts)) := rfl
    rw [hjoined]
    exact .more (.bare hx) nofun (ih hy)

/-- Texts with commas between them stand inside brackets. -/
theorem inside_joined {texts : List (List Char)} {xs : List γ} (h : List.Forall₂ One texts xs) :
    Inside (Led One) (Script.joined texts) xs := by
  cases h with
  | nil => exact .blank nofun
  | @cons text x texts xs hx hxs =>
    rw [← List.append_nil (Script.joined (text :: texts))]
    exact .row (row_joined hx hxs) nofun

/-- A text and the row after it are joined texts and the closing bracket. -/
theorem append_rowText (close : Char) (text : List Char) (texts : List (List Char)) :
    text ++ rowText close texts = Script.joined (text :: texts) ++ [close] := by
  induction texts generalizing text with
  | nil =>
    have hjoined : Script.joined [text] = text := List.append_nil text
    rw [hjoined, rowText]
  | cons next texts ih =>
    have hjoined : Script.joined (text :: next :: texts) =
        text ++ ',' :: Script.joined (next :: texts) := rfl
    rw [hjoined, rowText, ih, List.append_assoc, List.cons_append]

/-! ### Values -/

/-- What holds of scalars, and of containers when it holds of what they contain, holds
of every value. -/
theorem Value.induct {P : Value → Prop} (null : P .null) (bool : ∀ b, P (.bool b))
    (number : ∀ n, P (.number n)) (string : ∀ s, P (.string s))
    (array : ∀ items, (∀ v ∈ items, P v) → P (.array items))
    (object : ∀ members : List (String × Value), (∀ m ∈ members, P m.2) → P (.object members))
    (value : Value) : P value :=
  @Value.rec P (fun items => ∀ v ∈ items, P v) (fun members => ∀ m ∈ members, P m.2)
    (fun m => P m.2) null bool number string array object
    (fun _ h => absurd h List.not_mem_nil)
    (fun _ _ hv hvs => List.forall_mem_cons.mpr ⟨hv, hvs⟩)
    (fun _ h => absurd h List.not_mem_nil)
    (fun _ _ hm hms => List.forall_mem_cons.mpr ⟨hm, hms⟩)
    (fun _ _ h => h) value

mutual

/-- The tree that the text of a value spells. -/
def Value.tree : Value → Tree
  | .null => .null
  | .bool b => .bool b
  | .number n => .number n.literal
  | .string s => .string (s.toList.map escapedPiece)
  | .array items => .array (treesOfItems items)
  | .object members => .object (entriesOfMembers members)

/-- The trees of items. -/
def treesOfItems : List Value → List Tree
  | [] => []
  | item :: rest => item.tree :: treesOfItems rest

/-- The entries of members. -/
def entriesOfMembers : List (String × Value) → List (List Piece × Tree)
  | [] => []
  | (key, value) :: rest =>
    (key.toList.map escapedPiece, value.tree) :: entriesOfMembers rest

end

/-- An array is its joined items in square brackets. -/
theorem text_array (items : List Value) :
    (Value.array items).text = '[' :: (Script.joined (items.map Value.text) ++ [']']) := by
  cases items with
  | nil => rw [Value.text]; rfl
  | cons v vs => rw [text_array_cons, append_rowText]; rfl

/-- An object is its joined members in braces. -/
theorem text_object (members : List (String × Value)) :
    (Value.object members).text = '{' :: (Script.joined (members.map memberText) ++ ['}']) := by
  cases members with
  | nil => rw [Value.text]; rfl
  | cons m ms => rw [text_object_cons, append_rowText]; rfl

/-- Items spell their trees when each of them does. -/
theorem spells_items {items : List Value} (h : ∀ v ∈ items, Spells v.text v.tree) :
    List.Forall₂ Spells (items.map Value.text) (treesOfItems items) := by
  induction items with
  | nil => exact .nil
  | cons v vs ih =>
    obtain ⟨hv, hvs⟩ := List.forall_mem_cons.mp h
    rw [List.map_cons, treesOfItems]
    exact .cons hv (ih hvs)

/-- Members spell their entries when the value of each spells its tree. -/
theorem spells_members {members : List (String × Value)}
    (h : ∀ m ∈ members, Spells m.2.text m.2.tree) :
    List.Forall₂ (MemberText Spells) (members.map memberText) (entriesOfMembers members) := by
  induction members with
  | nil => exact .nil
  | cons m ms ih =>
    obtain ⟨key, value⟩ := m
    obtain ⟨hv, hms⟩ := List.forall_mem_cons.mp h
    rw [List.map_cons, entriesOfMembers]
    exact .cons (.bare (piecesText_escaped key.toList) hv) (ih hms)

/-- The text of a value spells its tree. -/
theorem Value.spells (v : Value) : Spells v.text v.tree := by
  induction v using Value.induct with
  | null => rw [Value.text]; exact .null
  | bool b =>
    cases b with
    | true => rw [Value.text]; exact .yes
    | false => rw [Value.text]; exact .no
  | number n =>
    rw [Value.text, ← Number.literal_text]
    exact .number n.literal_proper.numberText
  | string s => rw [Value.text]; exact .string (piecesText_escaped s.toList)
  | array items ih => rw [text_array]; exact .array (inside_joined (spells_items ih))
  | object members ih => rw [text_object]; exact .object (inside_joined (spells_members ih))

/-- A value without blanks around it is a whole text. -/
theorem Spells.whole {text : List Char} {tree : Tree} (h : Spells text tree) :
    SpellsText text tree := by
  have hbare : SpellsText (text ++ []) tree := .mk (.bare h) nofun
  rwa [List.append_nil] at hbare

end Settings.Json
