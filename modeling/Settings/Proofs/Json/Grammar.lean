import Settings.Json.Tree
import Settings.Proofs.Json.Literal

/-!
# The grammar of stored text

A text spells a tree when it can be put together from the productions of JSON.
Nothing is read here: a production says which texts spell which tree, blanks are
allowed around every value, every comma and every colon, and each character of a
string may be spelled in any of its ways. What a reader accepts and what it makes of
it is compared with this relation elsewhere. How deep a text may nest, whether its
escapes come in pairs and whether its numbers are in range is asked of the tree.
-/

namespace Settings.Json

/-! ### Blanks, rows and brackets -/

/-- Nothing but blanks. -/
def Blank (text : List Char) : Prop :=
  ∀ c ∈ text, isBlank c = true

section Rows

variable {γ : Type} (One : List Char → γ → Prop)

/-- An element with blanks in front. -/
inductive Led : List Char → γ → Prop where
  /-- The blanks may be none. -/
  | mk {before text : List Char} {x : γ} (hb : Blank before) (hx : One text x) :
    Led (before ++ text) x

/-- Elements with commas between them, of which there is at least one. -/
inductive Row : List Char → List γ → Prop where
  /-- A last element. -/
  | last {text : List Char} {x : γ} (hx : One text x) : Row text [x]
  /-- An element and more after a comma. -/
  | more {text after rest : List Char} {x : γ} {xs : List γ} (hx : One text x)
    (ha : Blank after) (hrest : Row rest xs) : Row (text ++ (after ++ ',' :: rest)) (x :: xs)

/-- What stands between two brackets. -/
inductive Inside : List Char → List γ → Prop where
  /-- Nothing but blanks. -/
  | blank {text : List Char} (ht : Blank text) : Inside text []
  /-- A row of elements. -/
  | row {text after : List Char} {xs : List γ} (hrow : Row One text xs) (ha : Blank after) :
    Inside (text ++ after) xs

end Rows

/-! ### Strings -/

/-- A piece of a string. -/
inductive PieceText : List Char → Piece → Prop where
  /-- A raw character: no quote, no backslash, nothing below U+0020. -/
  | raw {c : Char} (hq : c ≠ '"') (hb : c ≠ '\\') (hc : 32 ≤ c.toNat) : PieceText [c] (.char c)
  /-- A character with a short escape. -/
  | short {mark c : Char} (hc : shortEscape? mark = some c) : PieceText ['\\', mark] (.char c)
  /-- Four hexadecimal digits. -/
  | unit {a b c d : Char} {n : Nat} (hn : Text.readQuad? a b c d = some n) :
    PieceText ['\\', 'u', a, b, c, d] (.unit n)

/-- The pieces of a string, without its quotes. -/
inductive PiecesText : List Char → List Piece → Prop where
  /-- The empty string. -/
  | nil : PiecesText [] []
  /-- A piece and more pieces. -/
  | cons {text rest : List Char} {piece : Piece} {pieces : List Piece}
    (hp : PieceText text piece) (hrest : PiecesText rest pieces) :
    PiecesText (text ++ rest) (piece :: pieces)

/-! ### Numbers -/

/-- A written exponent, or none. -/
inductive PowerText : List Char → Option Power → Prop where
  /-- None. -/
  | none : PowerText [] .none
  /-- An exponent without a sign. -/
  | bare {mark : Char} {ds : List Char} (hm : mark = 'e' ∨ mark = 'E') :
    PowerText (mark :: ds) (some ⟨false, ds⟩)
  /-- An exponent with a plus sign. -/
  | plus {mark : Char} {ds : List Char} (hm : mark = 'e' ∨ mark = 'E') :
    PowerText (mark :: '+' :: ds) (some ⟨false, ds⟩)
  /-- An exponent with a minus sign. -/
  | minus {mark : Char} {ds : List Char} (hm : mark = 'e' ∨ mark = 'E') :
    PowerText (mark :: '-' :: ds) (some ⟨true, ds⟩)

/-- A number: a sign, digits without a leading zero, digits after a point and an
exponent. -/
inductive NumberText : List Char → Literal → Prop where
  /-- The digits are those of the literal. -/
  | mk {literal : Literal} {power : List Char} (hl : literal.Proper)
    (hp : PowerText power literal.power) :
    NumberText ((if literal.negative then ['-'] else []) ++
      (literal.whole ++ (fractionText literal.fraction ++ power))) literal

/-! ### Values -/

/-- A key, a colon and a value. -/
inductive MemberText {γ : Type} (One : List Char → γ → Prop) :
    List Char → List Piece × γ → Prop where
  /-- Blanks may stand on either side of the colon. -/
  | mk {key before text : List Char} {pieces : List Piece} {x : γ} (hk : PiecesText key pieces)
    (hb : Blank before) (hx : Led One text x) :
    MemberText One ('"' :: (key ++ '"' :: (before ++ ':' :: text))) (pieces, x)

/-- A text spells a tree. -/
inductive Spells : List Char → Tree → Prop where
  /-- The word for null. -/
  | null : Spells ['n', 'u', 'l', 'l'] .null
  /-- The word for true. -/
  | yes : Spells ['t', 'r', 'u', 'e'] (.bool true)
  /-- The word for false. -/
  | no : Spells ['f', 'a', 'l', 's', 'e'] (.bool false)
  /-- A number. -/
  | number {text : List Char} {literal : Literal} (hl : NumberText text literal) :
    Spells text (.number literal)
  /-- A string in quotes. -/
  | string {text : List Char} {pieces : List Piece} (hs : PiecesText text pieces) :
    Spells ('"' :: (text ++ ['"'])) (.string pieces)
  /-- Items in square brackets. -/
  | array {text : List Char} {items : List Tree} (hi : Inside (Led Spells) text items) :
    Spells ('[' :: (text ++ [']'])) (.array items)
  /-- Members in braces. -/
  | object {text : List Char} {entries : List (List Piece × Tree)}
    (he : Inside (Led (MemberText Spells)) text entries) :
    Spells ('{' :: (text ++ ['}'])) (.object entries)

/-- A whole text: a value with blanks around it and nothing else. -/
inductive SpellsText : List Char → Tree → Prop where
  /-- The blanks may be none. -/
  | mk {text after : List Char} {tree : Tree} (hv : Led Spells text tree) (ha : Blank after) :
    SpellsText (text ++ after) tree

/-! ### What is asked of a tree -/

mutual

/-- How many containers are nested in one another; a scalar has none. -/
def Tree.depth : Tree → Nat
  | .array items => depthOfTrees items + 1
  | .object entries => depthOfEntries entries + 1
  | _ => 0

/-- The greatest depth of an item. -/
def depthOfTrees : List Tree → Nat
  | [] => 0
  | item :: rest => max item.depth (depthOfTrees rest)

/-- The greatest depth of the value of an entry. -/
def depthOfEntries : List (List Piece × Tree) → Nat
  | [] => 0
  | (_, tree) :: rest => max tree.depth (depthOfEntries rest)

end

mutual

/-- The number literals in a tree. -/
def Tree.literals : Tree → List Literal
  | .number literal => [literal]
  | .array items => literalsOfTrees items
  | .object entries => literalsOfEntries entries
  | _ => []

/-- The number literals in items. -/
def literalsOfTrees : List Tree → List Literal
  | [] => []
  | item :: rest => item.literals ++ literalsOfTrees rest

/-- The number literals in the values of entries. -/
def literalsOfEntries : List (List Piece × Tree) → List Literal
  | [] => []
  | (_, tree) :: rest => tree.literals ++ literalsOfEntries rest

end

mutual

/-- The strings in a tree, keys included. -/
def Tree.strings : Tree → List (List Piece)
  | .string pieces => [pieces]
  | .array items => stringsOfTrees items
  | .object entries => stringsOfEntries entries
  | _ => []

/-- The strings in items. -/
def stringsOfTrees : List Tree → List (List Piece)
  | [] => []
  | item :: rest => item.strings ++ stringsOfTrees rest

/-- The keys of entries and the strings in their values. -/
def stringsOfEntries : List (List Piece × Tree) → List (List Piece)
  | [] => []
  | (key, tree) :: rest => key :: (tree.strings ++ stringsOfEntries rest)

end

end Settings.Json
