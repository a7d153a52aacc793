import Settings.Proofs.Json.Canonical
import Settings.Proofs.Json.Keys
import Settings.Proofs.Json.SafeIntegers
import Settings.Proofs.Script.Enumeration

/-!
# What a script was shown it writes back

A script that is shown a stored value and writes it again changes the text in two ways: the
properties of an object stand in the order in which a script enumerates them, and numbers are
written as doubles. The order does not matter to the reader, who sorts the keys, and a safe
integer is the same integer still. Strings and keys are taken apart into units and put together
again. So the text denotes the value that was shown, as long as its numbers are safe integers.
-/

namespace Settings.Script

open Text (Units)
open Json (Spells Tree Members)

/-! ### Strings -/

/-- The units of a character are written as the character. -/
theorem quoteBody_unitsOfChar (c : Char) (rest : Units) :
    quoteBody (Text.unitsOfChar c ++ rest) = Json.escapeChar c ++ quoteBody rest := by
  rcases Text.unitsOfChar_cases c with ⟨unit, hunits, ho, hs, hchar⟩ |
    ⟨high, low, hunits, ho, hs, hchar⟩
  · rw [hunits, List.singleton_append]
    cases rest with
    | nil =>
      simp only [quoteBody, ho, hs, Bool.or_self, Bool.false_eq_true, if_false, hchar,
        List.append_nil]
    | cons second rest =>
      simp only [quoteBody, ho, hs, Bool.or_self, Bool.false_and, Bool.false_eq_true, if_false,
        hchar]
  · simp only [hunits, List.cons_append, List.nil_append, quoteBody, ho, hs, Bool.and_self,
      if_true, hchar]

/-- The units of characters are written as the characters. -/
theorem quoteBody_encodeUnits (chars : List Char) :
    quoteBody (Text.encodeUnits chars) = chars.flatMap Json.escapeChar := by
  induction chars with
  | nil => rfl
  | cons c rest ih =>
    rw [Text.encodeUnits, List.flatMap_cons, quoteBody_unitsOfChar, List.flatMap_cons]
    exact congrArg _ ih

/-- The units of a text are written in quotes as the text is stored. -/
theorem quote_unitsOf (s : String) : quote (Text.unitsOf s) = Json.quote s.toList := by
  rw [quote, Text.unitsOf, quoteBody_encodeUnits, Json.quote]

/-! ### Members in another order -/

/-- In whatever order the members of an object are enumerated, under each key stands what is
found there. -/
theorem find?_eq_last? {members enumerated : Json.Document} (h : Members.Ascending members)
    (hperm : enumerated.Perm members) (key : String) :
    Members.find? key members = Json.last? key enumerated := by
  have hfound : Members.find? key members = Json.last? key members := by
    have hof := Members.find?_ofEntries key members
    rwa [Members.ofEntries_of_ascending h] at hof
  rw [hfound]
  exact last?_perm hperm.symm (Members.nodup_keys h) key

/-! ### Values -/

/-- A tree denotes a value and is nested no deeper. -/
structure Carries (tree : Tree) (w : Json.Value) : Prop where
  /-- No more containers are nested. -/
  depth_le : tree.depth ≤ w.depth
  /-- The tree denotes the value. -/
  denotes : tree.Denotes w

/-- What a script is shown of a value it writes as a text of that value. -/
def WritesBack (w : Json.Value) : Prop :=
  ∃ text tree, textOf false (shown w) = .ok (some text) ∧ Spells text tree ∧ Carries tree w

/-- Items are written back one by one. -/
theorem exists_written_items {ws : List Json.Value} (h : ∀ w ∈ ws, WritesBack w) :
    ∃ parts trees, textsOfItems (ws.map shown) = .ok parts ∧ List.Forall₂ Spells parts trees ∧
      List.Forall₂ Carries trees ws := by
  induction ws with
  | nil => exact ⟨[], [], rfl, .nil, .nil⟩
  | cons w ws ih =>
    obtain ⟨⟨text, tree, htext, hspells, hcarries⟩, hws⟩ := List.forall_mem_cons.mp h
    obtain ⟨parts, trees, hparts, hall, hcarried⟩ := ih hws
    refine ⟨text :: parts, tree :: trees, ?_, .cons hspells hall, .cons hcarries hcarried⟩
    rw [List.map_cons, textsOfItems, htext, hparts]
    rfl

/-- An entry with a key and a tree that a member is written as. -/
inductive CarriesMember : List Json.Piece × Tree → String × Json.Value → Prop
  /-- The pieces decode to the key and the tree carries the value. -/
  | mk {pieces : List Json.Piece} {tree : Tree} {key : String} {w : Json.Value}
    (hkey : Json.Decodes pieces key.toList) (hvalue : Carries tree w) :
    CarriesMember (pieces, tree) (key, w)

/-- Members are written back one by one. -/
theorem exists_written_members {ms : Json.Document} (h : ∀ m ∈ ms, WritesBack m.2) :
    ∃ parts entries, textsOfProperties (ms.map shownMember) = .ok parts ∧
      List.Forall₂ (Json.MemberText Spells) parts entries ∧
      List.Forall₂ CarriesMember entries ms := by
  induction ms with
  | nil => exact ⟨[], [], rfl, .nil, .nil⟩
  | cons m ms ih =>
    obtain ⟨key, w⟩ := m
    obtain ⟨⟨text, tree, htext, hspells, hcarries⟩, hms⟩ := List.forall_mem_cons.mp h
    obtain ⟨parts, entries, hparts, hall, hcarried⟩ := ih hms
    have hmember : Json.MemberText Spells (Json.quote key.toList ++ ':' :: text)
        (key.toList.map Json.escapedPiece, tree) := .bare (Json.piecesText_escaped key.toList) hspells
    refine ⟨_, (key.toList.map Json.escapedPiece, tree) :: entries, ?_, .cons hmember hall,
      .cons (.mk (Json.decodes_escapedPieces key.toList) hcarries) hcarried⟩
    rw [List.map_cons, shownMember, textsOfProperties, htext, hparts, quote_unitsOf]
    rfl

/-- Items are nested no deeper than what they carry. -/
theorem depthOfTrees_le {trees : List Tree} {ws : List Json.Value}
    (h : List.Forall₂ Carries trees ws) : Json.depthOfTrees trees ≤ Json.depthOfItems ws := by
  induction h with
  | nil => exact Nat.le_refl _
  | cons hcarries _ ih =>
    rw [Json.depthOfTrees, Json.depthOfItems]
    have hdepth := hcarries.depth_le
    omega

/-- Entries are nested no deeper than the members that they carry. -/
theorem depthOfEntries_le {entries : List (List Json.Piece × Tree)} {ms : Json.Document}
    (h : List.Forall₂ CarriesMember entries ms) :
    Json.depthOfEntries entries ≤ Json.depthOfMembers ms := by
  induction h with
  | nil => exact Nat.le_refl _
  | cons hcarries _ ih =>
    cases hcarries with
    | mk _ hvalue =>
      rw [Json.depthOfEntries, Json.depthOfMembers]
      have hdepth := hvalue.depth_le
      omega

/-- An array is written back when its items are. -/
theorem writesBack_array {ws : List Json.Value} (h : ∀ w ∈ ws, WritesBack w) :
    WritesBack (.array ws) := by
  obtain ⟨parts, trees, hparts, hspells, hcarries⟩ := exists_written_items h
  have htext : textOf false (shown (.array ws)) = .ok (some ('[' :: (joined parts ++ [']']))) := by
    rw [shown, shownItems_eq, textOf, hparts]
    rfl
  have hdepth : (Tree.array trees).depth ≤ (Json.Value.array ws).depth := by
    rw [Tree.depth, Json.Value.depth]
    exact Nat.succ_le_succ (depthOfTrees_le hcarries)
  have hdenotes : (Tree.array trees).Denotes (.array ws) :=
    .array (hcarries.imp fun _ _ hcarried => hcarried.denotes)
  exact ⟨_, .array trees, htext, .array (Json.inside_joined hspells), hdepth, hdenotes⟩

/-- An object is written back when the values of its members are. -/
theorem writesBack_object {members : Json.Document} (hasc : Members.Ascending members)
    (h : ∀ m ∈ members, WritesBack m.2) : WritesBack (.object members) := by
  obtain ⟨enumerated, hperm, -, hdefined⟩ := exists_enumerated hasc
  have henumerated : ∀ m ∈ enumerated, WritesBack m.2 := fun m hm => h m (hperm.mem_iff.mp hm)
  obtain ⟨parts, entries, hparts, hspells, hcarries⟩ := exists_written_members henumerated
  have htext : textOf false (shown (.object members)) =
      .ok (some ('\x7b' :: (joined parts ++ ['\x7d']))) := by
    have hshown : shown (.object members) = .object (defined (members.map shownMember)) := by
      rw [shown, shownMembers_eq]
      rfl
    rw [hshown, hdefined, textOf, hparts]
    rfl
  have hdepth : (Tree.object entries).depth ≤ (Json.Value.object members).depth := by
    have hsame : Json.depthOfMembers enumerated ≤ Json.depthOfMembers members := by
      rw [Json.depthOfMembers_le_iff]
      intro m hm
      exact Json.depthOfMembers_le_iff.mp (Nat.le_refl _) m (hperm.mem_iff.mp hm)
    rw [Tree.depth, Json.Value.depth]
    exact Nat.succ_le_succ ((depthOfEntries_le hcarries).trans hsame)
  have hmembers : List.Forall₂ (Json.EntryOf Json.denotation.key Json.denotation.Of) entries
      enumerated := by
    refine hcarries.imp fun entry m hcarried => ?_
    cases hcarried with
    | mk hkey hvalue => exact .mk hkey hvalue.denotes
  have hdenotes : (Tree.object entries).Denotes (.object members) :=
    .object hmembers ⟨members, rfl, hasc, find?_eq_last? hasc hperm⟩
  exact ⟨_, .object entries, htext, .object (Json.inside_joined hspells), hdepth, hdenotes⟩

/-- A safe integer is written back. -/
theorem writesBack_integer {n : Int} {hrange : Json.leastInteger ≤ n ∧ n ≤ Json.greatestInteger}
    (h : n.natAbs ≤ Binary.greatestSafe) : WritesBack (.number (.integer n hrange)) := by
  obtain ⟨x, hx, _, hnumber⟩ := Json.scriptLiteral_number h
  have htext : textOf false (shown (.number (.integer n hrange))) =
      .ok (some (Json.scriptLiteral x).text) := by
    rw [shown, Json.Number.literal, hx, textOf, numberText, Json.scriptLiteral_text]
  have hspells : Spells (Json.scriptLiteral x).text (.number (Json.scriptLiteral x)) :=
    .number (Json.scriptLiteral_proper x).numberText
  exact ⟨_, _, htext, hspells, Nat.le_refl _, .number ⟨_, hnumber, rfl⟩⟩

/-- An ordered value whose numbers are safe integers is written back. -/
theorem writesBack {w : Json.Value} (ho : w.Ordered) (hs : w.SafeIntegers) : WritesBack w := by
  induction w using Json.Value.induct with
  | null => exact ⟨_, .null, rfl, .null, Nat.le_refl _, .null⟩
  | bool b =>
    cases b with
    | true => exact ⟨_, .bool true, rfl, .yes, Nat.le_refl _, .bool true⟩
    | false => exact ⟨_, .bool false, rfl, .no, Nat.le_refl _, .bool false⟩
  | number n =>
    have hn : n.SafeInteger := hs n (List.mem_singleton.mpr rfl)
    cases n with
    | integer n hrange => exact writesBack_integer hn
    | float x => exact hn.elim
  | string s =>
    have htext : textOf false (shown (.string s)) = .ok (some (Json.quote s.toList)) := by
      rw [shown, textOf, quote_unitsOf]
    exact ⟨_, .string (s.toList.map Json.escapedPiece), htext,
      .string (Json.piecesText_escaped s.toList), Nat.le_refl _,
      .string (Json.decodes_escapedPieces s.toList)⟩
  | array items ih =>
    have hitems := Json.orderedItems_iff.mp ho
    have hsafe := Json.safeIntegers_array_iff.mp hs
    exact writesBack_array fun v hv => ih v hv (hitems v hv) (hsafe v hv)
  | object members ih =>
    obtain ⟨hasc, hmembers⟩ := Json.ordered_object_iff.mp ho
    have hsafe := Json.safeIntegers_object_iff.mp hs
    exact writesBack_object hasc fun m hm => ih m hm (hmembers m hm) (hsafe m hm)

end Settings.Script
