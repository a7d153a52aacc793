import Mathlib.Data.List.ReduceOption
import Settings.Proofs.Script.Enumeration
import Settings.Proofs.Store.Converted

/-!
# The order in which properties were defined

Two script values that differ only in the order in which the properties of their objects were
defined may be written as different texts. The trees of these texts are nested equally deep and
have the same entries in another order; as no key stands twice, they denote the same value. So
one of the two is stored exactly as the other is.
-/

namespace Settings

open Json (Spells Tree Piece)
open Text (Units)

/-! ### Trees with their entries in another order -/

namespace Json.Tree

/-- A tree is nested as deep as another one and denotes whatever that one denotes. -/
structure Matches (tree other : Tree) : Prop where
  /-- As many containers are nested. -/
  depth_eq : other.depth = tree.depth
  /-- What the one denotes the other denotes. -/
  denotes : ∀ {w : Json.Value}, tree.Denotes w → other.Denotes w

/-- A tree matches itself. -/
theorem Matches.refl (tree : Tree) : tree.Matches tree :=
  ⟨rfl, id⟩

/-- Arrays of matching items match. -/
theorem matches_array {items others : List Tree} (h : List.Forall₂ Matches items others) :
    (Tree.array items).Matches (.array others) := by
  have hdepth : depthOfTrees others = depthOfTrees items := by
    induction h with
    | nil => rfl
    | cons hitem _ ih => rw [depthOfTrees, depthOfTrees, hitem.depth_eq, ih]
  refine ⟨by rw [Tree.depth, Tree.depth, hdepth], fun hw => ?_⟩
  cases hw with
  | array hws =>
    have hothers := Script.forall₂_join (fun _ _ _ _ hitem hof => hitem.denotes hof) h hws
    exact .array hothers

/-- The entries of a tree nest as deep as matching ones in another order. -/
theorem depthOfEntries_eq {entries others reordered : List (List Piece × Tree)}
    (hperm : reordered.Perm others)
    (h : List.Forall₂ (Script.SameKey Matches) entries reordered) :
    depthOfEntries others = depthOfEntries entries := by
  have hpointwise : depthOfEntries reordered = depthOfEntries entries := by
    clear hperm
    induction h with
    | nil => rfl
    | cons hentry _ ih =>
      cases hentry with
      | mk htree => rw [depthOfEntries, depthOfEntries, htree.depth_eq, ih]
  have hle {some all : List (List Piece × Tree)} (hsame : some.Perm all) :
      depthOfEntries some ≤ depthOfEntries all :=
    depthOfEntries_le_iff.mpr fun e he =>
      depthOfEntries_le_iff.mp (Nat.le_refl _) e (hsame.mem_iff.mp he)
  rw [← hpointwise]
  exact Nat.le_antisymm (hle hperm.symm) (hle hperm)

/-- Entries whose keys have different units denote members with different keys. -/
theorem distinctKeys_of_entries {entries : List (List Piece × Tree)}
    {ms : List (String × Json.Value)}
    (hunits : (entries.map fun e => e.1.flatMap Script.pieceUnits).Nodup)
    (h : List.Forall₂ (EntryOf denotation.key denotation.Of) entries ms) :
    Script.DistinctKeys ms := by
  have hkeys : entries.map (fun e => e.1.flatMap Script.pieceUnits) =
      (ms.map Prod.fst).map Text.unitsOf := by
    clear hunits
    induction h with
    | nil => rfl
    | cons hentry _ ih =>
      cases hentry with
      | mk hkey _ =>
        rw [List.map_cons, List.map_cons, List.map_cons, ih]
        exact congrArg (· :: _) (Script.flatMap_pieceUnits_decodes hkey)
  rw [hkeys] at hunits
  exact hunits.of_map _

/-- Objects match that have matching entries in another order, if no key stands twice. -/
theorem matches_object {entries others reordered : List (List Piece × Tree)}
    (hunits : (entries.map fun e => e.1.flatMap Script.pieceUnits).Nodup)
    (hperm : reordered.Perm others)
    (h : List.Forall₂ (Script.SameKey Matches) entries reordered) :
    (Tree.object entries).Matches (.object others) := by
  refine ⟨by rw [Tree.depth, Tree.depth, depthOfEntries_eq hperm h], fun hw => ?_⟩
  cases hw with
  | @object _ ms _ hms hw =>
    obtain ⟨members, rfl, hasc, hfind⟩ := hw
    have hreordered : List.Forall₂ (EntryOf denotation.key denotation.Of) reordered ms := by
      refine Script.forall₂_join (fun e _ other m hsame hentry => ?_) h hms
      cases hsame with
      | mk htree =>
        cases hentry with
        | mk hkey hof => exact .mk hkey (htree.denotes hof)
    obtain ⟨moved, hmoved, hsame⟩ := List.perm_comp_forall₂ hperm.symm hreordered
    have hdistinct := distinctKeys_of_entries hunits hms
    exact .object hmoved ⟨members, rfl, hasc, fun key =>
      (hfind key).trans (Script.last?_perm hsame.symm hdistinct key)⟩

end Json.Tree

namespace Script

/-! ### Values with their properties in another order -/

/-- Two values of which one has the properties of its objects defined in another order, at every
level. Each property is defined once. -/
inductive Value.Reordered : Value → Value → Prop where
  /-- Nothing is in another order. -/
  | same (v : Value) : Reordered v v
  /-- Items stay where they are. -/
  | array {vs us : List Value} (h : List.Forall₂ Reordered vs us) :
    Reordered (.array vs) (.array us)
  /-- Properties are defined in another order. -/
  | object {entries others moved : List (Units × Value)} (hdistinct : DistinctKeys entries)
    (hperm : moved.Perm others) (h : List.Forall₂ (SameKey Reordered) entries moved) :
    Reordered (Value.ofEntries entries) (Value.ofEntries others)
  /-- What is offered has its properties in another order. -/
  | standIn {v u : Value} (h : Reordered v u) : Reordered (.standIn v) (.standIn u)

/-- Nothing is written of two values, or texts with matching trees. -/
inductive TextsMatch : Option (List Char) → Option (List Char) → Prop where
  /-- There is no text. -/
  | none : TextsMatch none none
  /-- There are two texts. -/
  | some {text other : List Char} {tree otherTree : Tree} (hspells : Spells text tree)
    (hother : Spells other otherTree) (h : tree.Matches otherTree) :
    TextsMatch (some text) (some other)

/-- If a value can be written, another one is written to match. -/
def WritesAlike (v u : Value) : Prop :=
  ∀ offered part, textOf offered v = .ok part →
    ∃ other, textOf offered u = .ok other ∧ TextsMatch part other

/-- What is written of a value matches itself. -/
theorem writesAlike_same (v : Value) : WritesAlike v v := by
  intro offered part hpart
  refine ⟨part, hpart, ?_⟩
  cases part with
  | none => exact .none
  | some text =>
    obtain ⟨tree, hspells⟩ := exists_spells_of_textOf hpart
    exact .some hspells hspells (.refl tree)

/-- Items are written alike one by one. -/
theorem exists_matching_items {vs us : List Value} (h : List.Forall₂ WritesAlike vs us)
    {parts : List (List Char)} (hparts : textsOfItems vs = .ok parts) :
    ∃ others trees otherTrees, textsOfItems us = .ok others ∧
      List.Forall₂ Spells parts trees ∧ List.Forall₂ Spells others otherTrees ∧
      List.Forall₂ Tree.Matches trees otherTrees := by
  induction h generalizing parts with
  | nil =>
    cases hparts
    exact ⟨[], [], [], rfl, .nil, .nil, .nil⟩
  | @cons v u vs us halike _ ih =>
    unfold textsOfItems at hparts
    obtain ⟨part, hpart, hmore⟩ := Json.bind_ok hparts
    obtain ⟨rest, hrest, he⟩ := Json.bind_ok hmore
    cases he
    obtain ⟨other, hother, hmatch⟩ := halike false _ hpart
    obtain ⟨others, trees, otherTrees, hothers, hspells, hspells', hmatches⟩ := ih hrest
    have hwritten : textsOfItems (u :: us) =
        .ok (other.getD ['n', 'u', 'l', 'l'] :: others) := by
      rw [textsOfItems, hother, hothers]
      rfl
    cases hmatch with
    | none =>
      exact ⟨_, .null :: trees, .null :: otherTrees, hwritten, .cons .null hspells,
        .cons .null hspells', .cons (.refl _) hmatches⟩
    | some ht ho hm =>
      exact ⟨_, _ :: trees, _ :: otherTrees, hwritten, .cons ht hspells, .cons ho hspells',
        .cons hm hmatches⟩

/-! ### Properties and the entries that they are written as -/

/-- A property is written as an entry, or left out. -/
inductive WritesEntry : Units × Value → Option (List Piece × Tree) → Prop where
  /-- The value has no text. -/
  | none {key : Units} {v : Value} (h : textOf false v = .ok none) : WritesEntry (key, v) none
  /-- The pieces have the units of the key, and the tree is that of the value. -/
  | some {key : Units} {v : Value} {text : List Char} {pieces : List Piece} {tree : Tree}
    (h : textOf false v = .ok (some text)) (hspells : Spells text tree)
    (hpieces : Json.PiecesText (quoteBody key) pieces)
    (hunits : pieces.flatMap pieceUnits = key) : WritesEntry (key, v) (some (pieces, tree))

/-- Properties are written as their entries. -/
theorem exists_written_entries {ps : List (Units × Value)}
    {entries : List (Option (List Piece × Tree))} (h : List.Forall₂ WritesEntry ps entries) :
    ∃ parts, textsOfProperties ps = .ok parts ∧
      List.Forall₂ (Json.MemberText Spells) parts entries.reduceOption := by
  induction h with
  | nil => exact ⟨[], rfl, .nil⟩
  | cons hentry _ ih =>
    obtain ⟨parts, hparts, hall⟩ := ih
    cases hentry with
    | none htext =>
      refine ⟨parts, ?_, hall⟩
      rw [textsOfProperties, htext, hparts]
      rfl
    | @some key v text pieces tree htext hspells hpieces hunits =>
      refine ⟨(quote key ++ ':' :: text) :: parts, ?_, ?_⟩
      · rw [textsOfProperties, htext, hparts]
        rfl
      · rw [List.reduceOption_cons_of_some]
        exact .cons (.bare hpieces hspells) hall

/-- The keys of the entries are keys of the properties, in their order. -/
theorem units_sublist {ps : List (Units × Value)} {entries : List (Option (List Piece × Tree))}
    (h : List.Forall₂ WritesEntry ps entries) :
    (entries.reduceOption.map fun e => e.1.flatMap pieceUnits).Sublist (ps.map Prod.fst) := by
  induction h with
  | nil => exact .slnil
  | cons hentry _ ih =>
    cases hentry with
    | none => exact ih.cons _
    | some _ _ _ hunits =>
      rw [List.reduceOption_cons_of_some, List.map_cons, List.map_cons, hunits]
      exact ih.cons_cons _

/-- Properties that can be written, and others that are alike one by one, have matching
entries. -/
theorem exists_matching_entries {ps qs : List (Units × Value)}
    (h : List.Forall₂ (SameKey WritesAlike) ps qs) {parts : List (List Char)}
    (hparts : textsOfProperties ps = .ok parts) :
    ∃ entries others, List.Forall₂ WritesEntry ps entries ∧ List.Forall₂ WritesEntry qs others ∧
      List.Forall₂ (SameKey Tree.Matches) entries.reduceOption others.reduceOption := by
  induction h generalizing parts with
  | nil => exact ⟨[], [], .nil, .nil, .nil⟩
  | cons hsame _ ih =>
    cases hsame with
    | @mk key v u halike =>
      unfold textsOfProperties at hparts
      obtain ⟨part, hpart, hmore⟩ := Json.bind_ok hparts
      obtain ⟨rest, hrest, -⟩ := Json.bind_ok hmore
      obtain ⟨other, hother, hmatch⟩ := halike false _ hpart
      obtain ⟨entries, others, hentries, hothers, hmatches⟩ := ih hrest
      cases hmatch with
      | none =>
        exact ⟨none :: entries, none :: others, .cons (.none hpart) hentries,
          .cons (.none hother) hothers, hmatches⟩
      | @some _ _ tree otherTree ht ho hm =>
        obtain ⟨pieces, hpieces, hunits⟩ := exists_piecesText key
        refine ⟨some (pieces, tree) :: entries, some (pieces, otherTree) :: others,
          .cons (.some hpart ht hpieces hunits) hentries,
          .cons (.some hother ho hpieces hunits) hothers, ?_⟩
        rw [List.reduceOption_cons_of_some, List.reduceOption_cons_of_some]
        exact .cons (.mk hm) hmatches

/-- Objects are written alike whose properties are, one by one and in another order. -/
theorem writesAlike_object {ps qs moved : List (Units × Value)} (hdistinct : DistinctKeys ps)
    (hperm : moved.Perm qs) (h : List.Forall₂ (SameKey WritesAlike) ps moved) :
    WritesAlike (.object ps) (.object qs) := by
  intro offered part hpart
  unfold textOf at hpart
  obtain ⟨parts, hparts, he⟩ := Json.bind_ok hpart
  cases he
  obtain ⟨entries, others, hentries, hothers, hmatches⟩ := exists_matching_entries h hparts
  obtain ⟨placed, hplaced, hsame⟩ := List.perm_comp_forall₂ hperm.symm hothers
  obtain ⟨written, hwritten, hspells⟩ := exists_written_entries hentries
  cases hwritten.symm.trans hparts
  obtain ⟨texts, htexts, hspells'⟩ := exists_written_entries hplaced
  have hunits : (entries.reduceOption.map fun e => e.1.flatMap pieceUnits).Nodup :=
    List.Nodup.sublist (units_sublist hentries) hdistinct
  have hreordered : others.reduceOption.Perm placed.reduceOption :=
    hsame.symm.filterMap id
  have hother : textOf offered (.object qs) = .ok (some ('{' :: (joined texts ++ ['}']))) := by
    rw [textOf, htexts]
    rfl
  exact ⟨_, hother, .some (.object (Json.inside_joined hspells))
    (.object (Json.inside_joined hspells')) (Tree.matches_object hunits hreordered hmatches)⟩

/-! ### Reordered values -/

/-- A value with its properties in another order is written alike. -/
theorem writesAlike_of_reordered {v u : Value} (h : v.Reordered u) : WritesAlike v u := by
  induction v using Value.induct generalizing u with
  | array vs ih =>
    cases h with
    | same => exact writesAlike_same _
    | @array _ us hus =>
      intro offered part hpart
      unfold textOf at hpart
      obtain ⟨parts, hparts, he⟩ := Json.bind_ok hpart
      cases he
      have hmem := (List.forall₂_and_left vs us).mpr ⟨fun _ hv => hv, hus⟩
      have halike : List.Forall₂ WritesAlike vs us := hmem.imp fun v _ hv => ih v hv.1 hv.2
      obtain ⟨others, trees, otherTrees, hothers, hspells, hspells', hmatches⟩ :=
        exists_matching_items halike hparts
      have hother : textOf offered (.array us) = .ok (some ('[' :: (joined others ++ [']']))) := by
        rw [textOf, hothers]
        rfl
      exact ⟨_, hother, .some (.array (Json.inside_joined hspells))
        (.array (Json.inside_joined hspells')) (Tree.matches_array hmatches)⟩
  | object ps ih =>
    generalize hv : Value.object ps = v at h
    cases h with
    | same => exact writesAlike_same _
    | array => cases hv
    | standIn => cases hv
    | @object entries others moved hdistinct hperm hmoved =>
      obtain rfl : ps = defined entries := Value.object.inj hv
      have hothers : DistinctKeys others := by
        have hkeys : DistinctKeys moved := by
          rw [DistinctKeys, ← keys_eq_of_sameKey hmoved]
          exact hdistinct
        exact (hperm.map Prod.fst).nodup_iff.mp hkeys
      -- the properties are taken in the order of enumeration on both sides
      obtain ⟨placed, hplaced, hsame⟩ := List.perm_comp_forall₂ (defined_perm hdistinct) hmoved
      have hmem := (List.forall₂_and_left _ placed).mpr ⟨fun _ hp => hp, hplaced⟩
      have halike : List.Forall₂ (SameKey WritesAlike) (defined entries) placed := by
        refine hmem.imp fun p q hpq => ?_
        obtain ⟨hp, hsame⟩ := hpq
        cases hsame with
        | mk hvalue => exact .mk (ih _ hp hvalue)
      exact writesAlike_object (defined_spec entries).1
        (hsame.trans (hperm.trans (defined_perm hothers).symm)) halike
  | standIn v ih =>
    cases h with
    | same => exact writesAlike_same _
    | standIn h =>
      intro offered part hpart
      unfold textOf at hpart ⊢
      cases offered with
      | true => exact writesAlike_same (.standIn v) true part hpart
      | false => exact ih h true part hpart
  | _ =>
    cases h
    exact writesAlike_same _

end Script

namespace Store

/-- A value with its properties in another order is stored as the value is. -/
theorem fromScript_reordered {v u : Script.Value} (h : v.Reordered u) {stored : Option Json.Value}
    (hv : fromScript v = .ok stored) : fromScript u = .ok stored := by
  have halike := Script.writesAlike_of_reordered h
  cases hwritten : Script.stringify v with
  | error thrown => cases (fromScript_of_thrown hwritten).symm.trans hv
  | ok part =>
    obtain ⟨other, hother, hmatch⟩ := halike false _ hwritten
    cases hmatch with
    | none =>
      cases (fromScript_of_textless hwritten).symm.trans hv
      exact fromScript_of_textless hother
    | @some text _ tree _ hspells hspells' hmatches =>
      rw [fromScript_of_text hwritten] at hv
      cases hread : Json.read text with
      | error failure => rw [hread] at hv; cases hv
      | ok w =>
        rw [hread] at hv
        cases hv
        obtain ⟨hdepth, hdenotes⟩ := hspells.read_ok_iff.mp hread
        have hdepth' := hmatches.depth_eq.trans_le hdepth
        exact fromScript_of_stores (.mk hother hspells' hdepth' (hmatches.denotes hdenotes))

end Store

end Settings
