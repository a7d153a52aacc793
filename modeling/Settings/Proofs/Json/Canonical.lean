import Settings.Proofs.Json.Denotation
import Settings.Proofs.Json.Written
import Settings.Proofs.Text.Bytes

/-!
# Canonical text

A text is canonical when the keys of every object in it ascend by their UTF-8 bytes and no
blank stands outside its strings. Both are said of the text and not of a value: the keys
are those of the tree that the text spells, and what stands outside strings is found by
following quotes and backslashes. The text of a value whose keys ascend at every level is
canonical.
-/

namespace Settings.Json

/-! ### Keys in the order of their bytes -/

/-- The UTF-8 bytes of one spelled key are less than those of another. -/
def KeyBefore (first second : List Piece) : Prop :=
  ∃ k l : String, Decodes first k.toList ∧ Decodes second l.toList ∧ Text.utf8 k < Text.utf8 l

mutual

/-- The keys of every object at every level of a tree ascend by their bytes. -/
def Tree.KeysAscend : Tree → Prop
  | .array items => keysAscendInTrees items
  | .object entries =>
    (entries.Pairwise fun first second => KeyBefore first.1 second.1) ∧ keysAscendInEntries entries
  | _ => True

/-- The keys ascend in every item. -/
def keysAscendInTrees : List Tree → Prop
  | [] => True
  | item :: rest => item.KeysAscend ∧ keysAscendInTrees rest

/-- The keys ascend in the value of every entry. -/
def keysAscendInEntries : List (List Piece × Tree) → Prop
  | [] => True
  | (_, value) :: rest => value.KeysAscend ∧ keysAscendInEntries rest

end

/-- The piece of a character spells it. -/
theorem charOf_escapedPiece (c : Char) : CharOf [escapedPiece c] c := by
  unfold escapedPiece
  split
  · next h =>
    have hunit : CharOf [.unit c.toNat] (Char.ofNat c.toNat) := .unit (Or.inl (by omega))
    rwa [Char.ofNat_toNat] at hunit
  · exact .char c

/-- The pieces of a string spell it. -/
theorem decodes_escapedPieces (chars : List Char) : Decodes (chars.map escapedPiece) chars := by
  induction chars with
  | nil => exact .nil
  | cons c chars ih => exact .cons (charOf_escapedPiece c) ih

/-- Keys that ascend are written in the order of their bytes. -/
theorem keyBefore_of_lt {k l : String} (h : k < l) :
    KeyBefore (k.toList.map escapedPiece) (l.toList.map escapedPiece) :=
  ⟨k, l, decodes_escapedPieces _, decodes_escapedPieces _, Text.utf8_lt_iff.mpr h⟩

/-- Keys ascend in the trees of items when they do in each of them. -/
theorem keysAscend_items {items : List Value} (h : ∀ v ∈ items, v.tree.KeysAscend) :
    keysAscendInTrees (treesOfItems items) := by
  induction items with
  | nil => trivial
  | cons v vs ih =>
    obtain ⟨hv, hvs⟩ := List.forall_mem_cons.mp h
    exact ⟨hv, ih hvs⟩

/-- Keys ascend in the entries of members when they do in the value of each. -/
theorem keysAscend_members {members : List (String × Value)}
    (h : ∀ m ∈ members, m.2.tree.KeysAscend) :
    keysAscendInEntries (entriesOfMembers members) := by
  induction members with
  | nil => trivial
  | cons m ms ih =>
    obtain ⟨hm, hms⟩ := List.forall_mem_cons.mp h
    exact ⟨hm, ih hms⟩

/-- The trees of items are written one by one. -/
theorem treesOfItems_eq (items : List Value) : treesOfItems items = items.map Value.tree := by
  induction items with
  | nil => rfl
  | cons v vs ih => rw [treesOfItems, ih, List.map_cons]

/-- The entries of members are written key by key. -/
theorem entriesOfMembers_eq (members : List (String × Value)) :
    entriesOfMembers members =
      members.map fun m => (m.1.toList.map escapedPiece, m.2.tree) := by
  induction members with
  | nil => rfl
  | cons m ms ih => rw [entriesOfMembers, ih, List.map_cons]

/-- The keys ascend in the tree of an ordered value. -/
theorem keysAscend_tree {v : Value} (h : v.Ordered) : v.tree.KeysAscend := by
  induction v using Value.induct with
  | null | bool | number | string => trivial
  | array items ih =>
    rw [Value.Ordered, orderedItems_iff] at h
    exact keysAscend_items fun v hv => ih v hv (h v hv)
  | object members ih =>
    obtain ⟨hascending, hordered⟩ := ordered_object_iff.mp h
    refine ⟨?_, keysAscend_members fun m hm => ih m hm (hordered m hm)⟩
    rw [entriesOfMembers_eq]
    exact List.pairwise_map.mpr (hascending.imp keyBefore_of_lt)

/-! ### What stands outside strings -/

/-- Where the next character of a text stands. -/
inductive Place where
  /-- Outside strings. -/
  | outside
  /-- In a string. -/
  | inside
  /-- In a string, after a backslash. -/
  | escaped

/-- The characters of a text that stand outside strings, their quotes apart. -/
def outsideFrom : Place → List Char → List Char
  | _, [] => []
  | .outside, c :: rest =>
    if c = '"' then outsideFrom .inside rest else c :: outsideFrom .outside rest
  | .inside, c :: rest =>
    if c = '"' then outsideFrom .outside rest
    else if c = '\\' then outsideFrom .escaped rest
    else outsideFrom .inside rest
  | .escaped, _ :: rest => outsideFrom .inside rest

/-- A character of ASCII that is printed and is no blank. -/
def Visible (c : Char) : Prop :=
  0x20 < c.toNat ∧ c.toNat < 0x7f

/-- Visibility is decided by the number of the character. -/
instance : DecidablePred Visible := fun c =>
  inferInstanceAs (Decidable (0x20 < c.toNat ∧ c.toNat < 0x7f))

/-- A part of a text with closed strings and nothing but visible characters outside
them. -/
def Tidy (text : List Char) : Prop :=
  ∃ shown : List Char, (∀ c ∈ shown, Visible c) ∧
    ∀ rest, outsideFrom .outside (text ++ rest) = shown ++ outsideFrom .outside rest

/-- Nothing is tidy. -/
theorem tidy_nil : Tidy [] :=
  ⟨[], fun _ h => absurd h List.not_mem_nil, fun _ => rfl⟩

/-- Tidy parts one after the other are tidy. -/
theorem Tidy.append {first second : List Char} (h : Tidy first) (h' : Tidy second) :
    Tidy (first ++ second) := by
  obtain ⟨shown, hshown, hout⟩ := h
  obtain ⟨more, hmore, hout'⟩ := h'
  refine ⟨shown ++ more, List.forall_mem_append.mpr ⟨hshown, hmore⟩, fun rest => ?_⟩
  rw [List.append_assoc, hout, hout', List.append_assoc]

/-- Visible characters without quotes are tidy. -/
theorem tidy_of_visible {text : List Char} (h : ∀ c ∈ text, Visible c ∧ c ≠ '"') : Tidy text := by
  refine ⟨text, fun c hc => (h c hc).1, fun rest => ?_⟩
  induction text with
  | nil => rfl
  | cons c cs ih =>
    obtain ⟨hc, hcs⟩ := List.forall_mem_cons.mp h
    rw [List.cons_append, outsideFrom, if_neg hc.2, ih hcs, List.cons_append]

/-- A word is tidy when each of its characters is found to be visible and no quote. -/
theorem tidy_word {word : List Char}
    (h : (word.all fun c => decide (Visible c ∧ c ≠ '"')) = true) : Tidy word :=
  tidy_of_visible fun c hc => of_decide_eq_true (List.all_eq_true.mp h c hc)

/-- A single visible character that is no quote is tidy. -/
theorem tidy_single {c : Char} (hc : Visible c) (hq : c ≠ '"') : Tidy [c] :=
  tidy_of_visible fun d hd => by
    rw [List.mem_singleton.mp hd]
    exact ⟨hc, hq⟩

/-- A hexadecimal digit neither ends a string nor escapes anything. -/
theorem digitChar_ne {n : Nat} (h : n < 16) : n.digitChar ≠ '"' ∧ n.digitChar ≠ '\\' := by
  have hall : ∀ n < 16, Nat.digitChar n ≠ '"' ∧ Nat.digitChar n ≠ '\\' := by decide
  exact hall n h

/-- Characters that neither end a string nor escape anything are passed inside it. -/
theorem outsideFrom_inside {text : List Char} (h : ∀ c ∈ text, c ≠ '"' ∧ c ≠ '\\')
    (rest : List Char) : outsideFrom .inside (text ++ rest) = outsideFrom .inside rest := by
  induction text with
  | nil => rfl
  | cons c cs ih =>
    obtain ⟨hc, hcs⟩ := List.forall_mem_cons.mp h
    rw [List.cons_append, outsideFrom, if_neg hc.1, if_neg hc.2, ih hcs]

/-- After a character of a string is written, the string is still open. -/
theorem outsideFrom_escapeChar (c : Char) (rest : List Char) :
    outsideFrom .inside (escapeChar c ++ rest) = outsideFrom .inside rest := by
  unfold escapeChar
  split
  · rfl
  split
  · rfl
  split
  · rfl
  split
  · rfl
  split
  · rfl
  split
  · rfl
  split
  · rfl
  · next hq hb _ _ _ _ _ =>
    split
    · have hquad : ∀ d ∈ Text.hexQuad c.toNat, d ≠ '"' ∧ d ≠ '\\' := by
        intro d hd
        simp only [Text.hexQuad, List.mem_cons, List.not_mem_nil, or_false] at hd
        rcases hd with rfl | rfl | rfl | rfl <;> exact digitChar_ne (Nat.mod_lt _ (by decide))
      exact outsideFrom_inside hquad rest
    · exact outsideFrom_inside (fun d hd => by rw [List.mem_singleton.mp hd]; exact ⟨hq, hb⟩) rest

/-- A string in quotes is tidy. -/
theorem tidy_quote (chars : List Char) : Tidy (quote chars) := by
  refine ⟨[], fun _ h => absurd h List.not_mem_nil, fun rest => ?_⟩
  have hbody : outsideFrom .inside (chars.flatMap escapeChar ++ '"' :: rest) =
      outsideFrom .outside rest := by
    induction chars with
    | nil => rfl
    | cons c cs ih => rw [List.flatMap_cons, List.append_assoc, outsideFrom_escapeChar, ih]
  rw [quote, List.cons_append, outsideFrom, if_pos rfl, List.append_assoc]
  exact hbody

/-- Tidy texts with commas between them are tidy. -/
theorem tidy_joined {texts : List (List Char)} (h : ∀ text ∈ texts, Tidy text) :
    Tidy (Script.joined texts) := by
  induction texts with
  | nil => exact tidy_nil
  | cons text texts ih =>
    obtain ⟨htext, htexts⟩ := List.forall_mem_cons.mp h
    cases texts with
    | nil =>
      have hjoined : Script.joined [text] = text := List.append_nil text
      rwa [hjoined]
    | cons next texts =>
      have hjoined : Script.joined (text :: next :: texts) =
          text ++ ([','] ++ Script.joined (next :: texts)) := rfl
      rw [hjoined]
      exact htext.append ((tidy_single (by decide) (by decide)).append (ih htexts))

/-- The characters of a literal that keeps to the grammar. -/
theorem Literal.Proper.visible {l : Literal} (h : l.Proper) :
    ∀ c ∈ l.text, Visible c ∧ c ≠ '"' := by
  have hdigit {c : Char} (hc : c.isDigit = true) : Visible c ∧ c ≠ '"' := by
    have hrange : 48 ≤ c.toNat ∧ c.toNat ≤ 57 := Char.isDigit_iff_toNat.mp hc
    refine ⟨⟨by omega, by omega⟩, fun hq => ?_⟩
    subst hq
    exact absurd hc (by decide)
  have hdigits {ds : List Char} (hds : ∀ c ∈ ds, c.isDigit = true) :
      ∀ c ∈ ds, Visible c ∧ c ≠ '"' := fun c hc => hdigit (hds c hc)
  have hmark {c : Char} {cs : List Char} (hc : Visible c ∧ c ≠ '"')
      (hcs : ∀ d ∈ cs, Visible d ∧ d ≠ '"') : ∀ d ∈ c :: cs, Visible d ∧ d ≠ '"' :=
    List.forall_mem_cons.mpr ⟨hc, hcs⟩
  have hnone : ∀ c ∈ ([] : List Char), Visible c ∧ c ≠ '"' :=
    fun _ hc => absurd hc List.not_mem_nil
  have hsign : ∀ c ∈ (if l.negative then ['-'] else []), Visible c ∧ c ≠ '"' := by
    split
    · exact hmark ⟨by decide, by decide⟩ hnone
    · exact hnone
  have hfraction : ∀ c ∈ fractionText l.fraction, Visible c ∧ c ≠ '"' := by
    cases hf : l.fraction with
    | nil => exact hnone
    | cons d ds => exact hmark ⟨by decide, by decide⟩ (hdigits (hf ▸ h.fraction_digits))
  have hpower : ∀ c ∈ powerText l.power, Visible c ∧ c ≠ '"' := by
    cases hp : l.power with
    | none => exact hnone
    | some power =>
      have hds := hdigits (h.power_digits power hp)
      refine hmark ⟨by decide, by decide⟩ (hmark ?_ hds)
      split <;> exact ⟨by decide, by decide⟩
  unfold Literal.text
  exact List.forall_mem_append.mpr ⟨hsign, List.forall_mem_append.mpr
    ⟨hdigits h.whole_digits, List.forall_mem_append.mpr ⟨hfraction, hpower⟩⟩⟩

/-- The text of a value is tidy. -/
theorem Value.tidy (v : Value) : Tidy v.text := by
  induction v using Value.induct with
  | null => rw [Value.text]; exact tidy_word (by decide)
  | bool b => cases b <;> rw [Value.text] <;> exact tidy_word (by decide)
  | number n =>
    rw [Value.text, ← Number.literal_text]
    exact tidy_of_visible n.literal_proper.visible
  | string s => rw [Value.text]; exact tidy_quote s.toList
  | array items ih =>
    rw [text_array]
    have hitems : Tidy (Script.joined (items.map Value.text)) :=
      tidy_joined fun text ht => by
        obtain ⟨v, hv, rfl⟩ := List.mem_map.mp ht
        exact ih v hv
    exact (tidy_single (c := '[') (by decide) (by decide)).append
      (hitems.append (tidy_single (by decide) (by decide)))
  | object members ih =>
    rw [text_object]
    have hmembers : Tidy (Script.joined (members.map memberText)) :=
      tidy_joined fun text ht => by
        obtain ⟨m, hm, rfl⟩ := List.mem_map.mp ht
        exact (tidy_quote m.1.toList).append
          ((tidy_single (c := ':') (by decide) (by decide)).append (ih m hm))
    exact (tidy_single (c := '{') (by decide) (by decide)).append
      (hmembers.append (tidy_single (by decide) (by decide)))

/-! ### Canonical texts -/

/-- A text whose keys ascend by their bytes at every level, with no blank outside its
strings. -/
structure CanonicalText (text : String) : Prop where
  /-- The text spells a tree, which is the only one, and its keys ascend. -/
  keys_ascend : ∃ tree, SpellsText text.toList tree ∧ tree.KeysAscend
  /-- Outside strings there are only visible characters. -/
  visible : ∀ c ∈ outsideFrom .outside text.toList, Visible c

/-- The text of an ordered value is canonical. -/
theorem canonical_encode {v : Value} (h : v.Ordered) : CanonicalText v.encode := by
  have htext : v.encode.toList = v.text := String.toList_ofList
  refine ⟨⟨v.tree, ?_, keysAscend_tree h⟩, ?_⟩
  · rw [htext]
    exact v.spells.whole
  · obtain ⟨shown, hshown, hout⟩ := v.tidy
    have hwhole := hout []
    rw [List.append_nil] at hwhole
    rw [htext, hwhole]
    exact fun c hc => hshown c (by simpa [outsideFrom] using hc)

end Settings.Json
