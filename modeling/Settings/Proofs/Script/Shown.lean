import Settings.Proofs.Json.Plain
import Settings.Proofs.Json.Unambiguous
import Settings.Proofs.Script.Objects
import Settings.Store.Scripted

/-!
# What a script sees of stored text

A script reads a text as what its tree means to it, and a text without a tree not at all.
A stored value is handed to a script as its text, which always has a tree, so the script
sees it as `shown` says. If a text denotes a stored value and all its numbers are plain
integers, then what the script sees of that value is like what it reads from the text
itself: the reader of stored text may have sorted keys, dropped repeated ones and joined
surrogates, but nothing else.
-/

namespace Settings.Script

open Text (Units)
open Binary (double)

/-! ### Units -/

/-- The piece written for a character has its units. -/
theorem pieceUnits_escaped (c : Char) : pieceUnits (Json.escapedPiece c) = Text.unitsOfChar c := by
  unfold Json.escapedPiece
  split
  · next h =>
    have hsmall : c.toNat < 0x10000 := by omega
    rw [pieceUnits, Text.unitsOfChar, if_pos hsmall]
  · rfl

/-- The pieces written for a text have its units. -/
theorem flatMap_pieceUnits_escaped (chars : List Char) :
    (chars.map Json.escapedPiece).flatMap pieceUnits = Text.encodeUnits chars := by
  rw [List.flatMap_map, Text.encodeUnits]
  exact List.flatMap_congr fun c _ => pieceUnits_escaped c

/-- A scalar value is the number of its character. -/
theorem toNat_ofNat {n : Nat} (h : n.isValidChar) : (Char.ofNat n).toNat = n := by
  rw [Char.ofNat, dif_pos h]
  rfl

/-- The pieces of one character have its units. -/
theorem flatMap_pieceUnits_charOf {ps : List Json.Piece} {c : Char} (h : Json.CharOf ps c) :
    ps.flatMap pieceUnits = Text.unitsOfChar c := by
  cases h with
  | char c => exact List.append_nil _
  | @unit n hn =>
    have hvalid : n.isValidChar := by unfold Nat.isValidChar; omega
    have hsmall : (Char.ofNat n).toNat < 0x10000 := by
      rw [toNat_ofNat hvalid]
      omega
    rw [Text.unitsOfChar, if_pos hsmall, toNat_ofNat hvalid]
    rfl
  | @pair high low hh hl =>
    have hvalue : (Text.pairValue high low).toNat =
        0x10000 + (high - 0xD800) * 0x400 + (low - 0xDC00) := by
      have hvalid : (0x10000 + (high - 0xD800) * 0x400 + (low - 0xDC00)).isValidChar := by
        unfold Nat.isValidChar; omega
      rw [Text.pairValue, toNat_ofNat hvalid]
    have hlarge : ¬(Text.pairValue high low).toNat < 0x10000 := by omega
    have hfirst : 0xD800 + ((Text.pairValue high low).toNat - 0x10000) / 0x400 = high := by omega
    have hsecond : 0xDC00 + ((Text.pairValue high low).toNat - 0x10000) % 0x400 = low := by omega
    rw [Text.unitsOfChar, if_neg hlarge, hfirst, hsecond]
    rfl

/-- The pieces of characters have their units. -/
theorem flatMap_pieceUnits_decodes {ps : List Json.Piece} {chars : List Char}
    (h : Json.Decodes ps chars) : ps.flatMap pieceUnits = Text.encodeUnits chars := by
  induction h with
  | nil => rfl
  | cons hc _ ih =>
    rw [List.flatMap_append, flatMap_pieceUnits_charOf hc, ih]
    rfl

/-! ### What a text means to a script -/

/-- What the parts of a text mean to a script. -/
def meaning : Json.Meaning Units Value :=
  target.meaning fun ps units => units = ps.flatMap pieceUnits

/-- A tree means a value to a script. -/
abbrev Means (tree : Json.Tree) (v : Value) : Prop :=
  meaning.Of tree v

/-- A script reads a text exactly as what a tree of the text means. -/
theorem parse_ok_iff {text : List Char} {v : Value} :
    parse text = .ok v ↔ ∃ tree, Json.SpellsText text tree ∧ Means tree v :=
  Json.whole_length_ok_iff Json.readsPieces_unitString

/-- Every tree means something to a script. -/
theorem exists_means (tree : Json.Tree) : ∃ v, Means tree v :=
  (Json.Meaning.exists_of_iff (fun ms => ⟨Value.ofEntries ms, rfl⟩) tree).mpr
    ⟨fun _ _ => ⟨_, rfl⟩, fun _ _ => ⟨_, rfl⟩⟩

/-! ### What is shown of a stored value -/

mutual

/-- The script value that a stored value is shown as. -/
def shown : Json.Value → Value
  | .null => .null
  | .bool b => .bool b
  | .number n => .number n.literal.toDouble
  | .string s => .string (Text.unitsOf s)
  | .array items => .array (shownItems items)
  | .object members => Value.ofEntries (shownMembers members)

/-- The script values that items are shown as. -/
def shownItems : List Json.Value → List Value
  | [] => []
  | item :: rest => shown item :: shownItems rest

/-- The entries that members are shown as. -/
def shownMembers : List (String × Json.Value) → List (Units × Value)
  | [] => []
  | (key, value) :: rest => (Text.unitsOf key, shown value) :: shownMembers rest

end

/-- The entry that a member is shown as. -/
def shownMember (member : String × Json.Value) : Units × Value :=
  (Text.unitsOf member.1, shown member.2)

/-- Items are shown one by one. -/
theorem shownItems_eq (items : List Json.Value) : shownItems items = items.map shown := by
  induction items with
  | nil => rfl
  | cons item rest ih => rw [shownItems, ih, List.map_cons]

/-- Members are shown one by one. -/
theorem shownMembers_eq (members : List (String × Json.Value)) :
    shownMembers members = members.map shownMember := by
  induction members with
  | nil => rfl
  | cons member rest ih =>
    obtain ⟨key, value⟩ := member
    rw [shownMembers, ih, List.map_cons, shownMember]

/-- The trees of items mean what the items are shown as. -/
theorem means_items {items : List Json.Value} (h : ∀ v ∈ items, Means v.tree (shown v)) :
    List.Forall₂ Means (Json.treesOfItems items) (shownItems items) := by
  induction items with
  | nil => exact .nil
  | cons v vs ih =>
    obtain ⟨hv, hvs⟩ := List.forall_mem_cons.mp h
    rw [Json.treesOfItems, shownItems]
    exact .cons hv (ih hvs)

/-- The entries of members mean what the members are shown as. -/
theorem means_members {members : List (String × Json.Value)}
    (h : ∀ m ∈ members, Means m.2.tree (shown m.2)) :
    List.Forall₂ (Json.EntryOf meaning.key Means) (Json.entriesOfMembers members)
      (shownMembers members) := by
  induction members with
  | nil => exact .nil
  | cons m ms ih =>
    obtain ⟨key, value⟩ := m
    obtain ⟨hv, hms⟩ := List.forall_mem_cons.mp h
    rw [Json.entriesOfMembers, shownMembers]
    exact .cons (.mk (flatMap_pieceUnits_escaped key.toList).symm hv) (ih hms)

/-- The tree of a stored value means what the value is shown as. -/
theorem means_shown (v : Json.Value) : Means v.tree (shown v) := by
  induction v using Json.Value.induct with
  | null => exact .null
  | bool b => exact .bool b
  | number n => exact .number rfl
  | string s => exact .string (flatMap_pieceUnits_escaped s.toList).symm
  | array items ih => exact .array (means_items ih)
  | object members ih => exact .object (means_members ih) rfl

/-- A stored value is handed over as what it is shown as; nothing is thrown. -/
theorem toScript_eq (v : Json.Value) : Store.toScript v = .ok (shown v) := by
  have hparse : parse v.text = .ok (shown v) :=
    parse_ok_iff.mpr ⟨v.tree, v.spells.whole, means_shown v⟩
  rw [Store.toScript, hparse]
  rfl

/-! ### Stored text and the script -/

/-- What is found last under the units of a key was put last under the key. -/
theorem last?_unitsOf {α β : Type} (f : α → β) (key : String) (entries : List (String × α)) :
    Json.last? (Text.unitsOf key) (entries.map fun entry => (Text.unitsOf entry.1, f entry.2)) =
      (Json.last? key entries).map f := by
  rw [Json.last?, Json.last?, ← List.map_reverse]
  induction entries.reverse with
  | nil => rfl
  | cons entry rest ih =>
    rw [List.map_cons, List.lookup_cons, List.lookup_cons, ih]
    by_cases hk : key = entry.1
    · rw [hk, beq_self_eq_true, beq_self_eq_true]; rfl
    · rw [beq_false_of_ne hk, beq_false_of_ne fun h => hk (Text.unitsOf_inj.mp h)]

/-- Under units that are no text nothing is found. -/
theorem last?_of_ne {α β : Type} (f : α → β) {key : Units} (h : ∀ s, key ≠ Text.unitsOf s)
    (entries : List (String × α)) :
    Json.last? key (entries.map fun entry => (Text.unitsOf entry.1, f entry.2)) = none := by
  rw [Json.last?, ← List.map_reverse]
  refine lookup_of_notMem fun hm => ?_
  obtain ⟨entry, he, hk⟩ := List.mem_map.mp hm
  obtain ⟨source, -, rfl⟩ := List.mem_map.mp he
  exact h source.1 hk.symm

/-- Whatever is related to the same elements, one by one, is related to each other. -/
theorem forall₂_join {α β γ : Type} {R : α → β → Prop} {S : α → γ → Prop} {T : β → γ → Prop}
    {xs : List α} {ys : List β} {zs : List γ}
    (h : ∀ x ∈ xs, ∀ y z, R x y → S x z → T y z) (hy : List.Forall₂ R xs ys)
    (hz : List.Forall₂ S xs zs) : List.Forall₂ T ys zs := by
  induction hy generalizing zs with
  | nil => cases hz; exact .nil
  | cons hxy _ ih =>
    cases hz with
    | cons hxz hzs =>
      obtain ⟨hx, hxs⟩ := List.forall_mem_cons.mp h
      exact .cons (hx _ _ hxy hxz) (ih hxs hzs)

/-- Members that have the values of their last entries are shown as those entries are. -/
theorem last?_shownMembers {members : List (String × Json.Value)}
    {entries : List (String × Json.Value)} (hasc : Json.Members.Ascending members)
    (hfind : ∀ key, Json.Members.find? key members = Json.last? key entries) (key : Units) :
    Json.last? key (shownMembers members) = Json.last? key (entries.map shownMember) := by
  rw [shownMembers_eq]
  by_cases h : ∃ s, key = Text.unitsOf s
  · obtain ⟨s, rfl⟩ := h
    have hmembers := Json.Members.find?_ofEntries s members
    rw [Json.Members.ofEntries_of_ascending hasc, hfind] at hmembers
    exact (last?_unitsOf shown s members).trans
      (hmembers ▸ (last?_unitsOf shown s entries).symm)
  · have hne : ∀ s, key ≠ Text.unitsOf s := fun s hs => h ⟨s, hs⟩
    exact (last?_of_ne shown hne members).trans (last?_of_ne shown hne entries).symm

/-- A member that an entry denotes is shown like the property that the entry means, if
this holds of their values. -/
theorem sameKey_shownMember {e : List Json.Piece × Json.Tree} {m : String × Json.Value}
    {p : Units × Value} (hm : Json.EntryOf Json.denotation.key Json.denotation.Of e m)
    (hp : Json.EntryOf meaning.key meaning.Of e p)
    (h : ∀ {w u}, e.2.Denotes w → Means e.2 u → (shown w).Alike u) :
    SameKey Value.Alike (shownMember m) p := by
  cases hm with
  | @mk ps t s v hs hv =>
    cases hp with
    | mk hk hx =>
      have hunits : ps.flatMap pieceUnits = Text.unitsOf s := flatMap_pieceUnits_decodes hs
      rw [hk, hunits]
      exact .mk (h hv hx)

/-- What a text denotes as stored is shown like what it means to a script, if all its
numbers are plain integers. -/
theorem alike_of_denotes {tree : Json.Tree} {w : Json.Value} {u : Value} (hd : tree.Denotes w)
    (hm : Means tree u) (hp : ∀ l ∈ tree.literals, l.Plain) : (shown w).Alike u := by
  induction tree using Json.Tree.induct generalizing w u with
  | null => cases hd; cases hm; exact .same _
  | bool b => cases hd; cases hm; exact .same _
  | number l =>
    cases hd with
    | number hw =>
      cases hm with
      | number hu =>
        obtain ⟨n, hn, rfl⟩ := hw
        cases hu
        have hplain := hp l (List.mem_singleton.mpr rfl)
        rw [shown, hplain.toDouble_number hn]
        exact .same _
  | string ps =>
    cases hd with
    | @string _ s hs =>
      cases hm with
      | string hk =>
        have hunits : ps.flatMap pieceUnits = Text.unitsOf s := flatMap_pieceUnits_decodes hs
        rw [hk, hunits]
        exact .same _
  | array items ih =>
    cases hd with
    | @array _ ws hws =>
      cases hm with
      | @array _ us hus =>
        rw [Json.Tree.literals, Json.forall_literalsOfTrees_iff] at hp
        have hitems : List.Forall₂ (fun w u => (shown w).Alike u) ws us :=
          forall₂_join (fun t ht w u hw hu => ih t ht hw hu (hp t ht)) hws hus
        show (Value.array (shownItems ws)).Alike (.array us)
        rw [shownItems_eq]
        exact .array (List.forall₂_map_left_iff.mpr hitems)
  | object entries ih =>
    cases hd with
    | @object _ ms _ hms hw =>
      cases hm with
      | @object _ us _ hus hu =>
        obtain ⟨members, rfl, hasc, hfind⟩ := hw
        cases hu
        rw [Json.Tree.literals, Json.forall_literalsOfEntries_iff] at hp
        have hentries : List.Forall₂ (fun m p => SameKey Value.Alike (shownMember m) p) ms us := by
          refine forall₂_join (fun e he m p hm hp' => ?_) hms hus
          exact sameKey_shownMember hm hp' fun hw hu => ih e he hw hu (hp e he)
        show (Value.ofEntries (shownMembers members)).Alike (Value.ofEntries us)
        refine alike_ofEntries fun key => ?_
        rw [last?_shownMembers hasc hfind]
        have hreverse := List.forall₂_reverse_iff.mpr (List.forall₂_map_left_iff.mpr hentries)
        exact lookup_rel hreverse key

end Settings.Script
