import Settings.Proofs.Json.Reread
import Settings.Proofs.Json.Unambiguous
import Settings.Proofs.Json.Written

/-!
# No two values have one text

The text of a value spells the tree of the value and no other tree, so it remains to be
seen that no two values have one tree. Characters are told apart by their pieces. Numbers
are told apart by their literals: the literal of an integer is read as that integer and
the literal of a double as a double, and the digits of a double round to it and to no
other one. This holds at every depth, also where the text is too deep to be read as a
value again.
-/

namespace Settings.Json

open Binary (double)

/-! ### Scalars -/

/-- No two characters have one piece. -/
theorem escapedPiece_inj {c d : Char} (h : escapedPiece c = escapedPiece d) : c = d := by
  unfold escapedPiece at h
  split at h <;> split at h
  · exact Char.toNat_inj.mp (Piece.unit.inj h)
  · cases h
  · cases h
  · exact Piece.char.inj h

/-- No two strings have one row of pieces. -/
theorem escapedPieces_inj {s t : String}
    (h : s.toList.map escapedPiece = t.toList.map escapedPiece) : s = t := by
  have hinj : Function.Injective escapedPiece := fun _ _ => escapedPiece_inj
  exact String.toList_inj.mp (List.map_injective_iff.mpr hinj h)

/-- The literal of a double has its sign. -/
theorem storedLiteral_negative (x : Binary.Finite double) :
    (storedLiteral x).negative = x.negative := by
  unfold storedLiteral Decimal.Layout.literal Decimal.Layout.positionalLiteral
  dsimp only
  split
  · split
    · rfl
    · split <;> rfl
  · rfl

/-- The literal of a double rounds to it. -/
theorem nearestDecimal_storedLiteral (x : Binary.Finite double) :
    Binary.nearestDecimal double (storedLiteral x).magnitude = x.rank := by
  have hrat : (storedLiteral x).magnitude.toRat = (Binary.shortest double x.rank).toRat :=
    Decimal.literal_magnitude Binary.storedDouble x.negative (Binary.shortest double x.rank)
  have hle := Decimal.nearestDecimal_mono double double_precision_pos hrat.le
  have hge := Decimal.nearestDecimal_mono double double_precision_pos hrat.ge
  have hshortest := Binary.nearestDecimal_shortest double double_precision_pos x.rank
  omega

/-- No two doubles have one literal. -/
theorem storedLiteral_inj {x y : Binary.Finite double} (h : storedLiteral x = storedLiteral y) :
    x = y := by
  have hsign : x.negative = y.negative := by
    rw [← storedLiteral_negative x, h, storedLiteral_negative]
  have hrank : x.rank = y.rank := by
    rw [← nearestDecimal_storedLiteral x, h, nearestDecimal_storedLiteral]
  obtain ⟨negative, rank, hlt⟩ := x
  cases hsign
  cases hrank
  rfl

/-- No integer has the literal of a double. -/
theorem integerLiteral_ne_storedLiteral {n : Int} (h : leastInteger ≤ n ∧ n ≤ greatestInteger)
    (x : Binary.Finite double) : integerLiteral n ≠ storedLiteral x := by
  intro heq
  obtain ⟨y, hy, -⟩ := storedLiteral_number x
  rw [← heq, integerLiteral_number n h] at hy
  cases hy

/-- No two numbers have one literal. -/
theorem Number.literal_inj {m n : Number} (h : m.literal = n.literal) : m = n := by
  cases m with
  | integer m hm =>
    cases n with
    | integer n hn =>
      have hread := integerLiteral_number m hm
      have heq : integerLiteral m = integerLiteral n := h
      rw [heq, integerLiteral_number n hn] at hread
      exact (Except.ok.inj hread).symm
    | float y => exact absurd h (integerLiteral_ne_storedLiteral hm y)
  | float x =>
    cases n with
    | integer n hn => exact absurd h.symm (integerLiteral_ne_storedLiteral hn x)
    | float y => exact congrArg Number.float (storedLiteral_inj h)

/-! ### Values -/

/-- No two rows of items have one row of trees when no two items have one tree. -/
theorem treesOfItems_inj {vs ws : List Value} (hinj : ∀ v ∈ vs, ∀ w, v.tree = w.tree → v = w)
    (h : treesOfItems vs = treesOfItems ws) : vs = ws := by
  induction vs generalizing ws with
  | nil =>
    cases ws with
    | nil => rfl
    | cons w ws => cases h
  | cons v vs ih =>
    cases ws with
    | nil => cases h
    | cons w ws =>
      obtain ⟨hv, hvs⟩ := List.forall_mem_cons.mp hinj
      obtain ⟨hhead, htail⟩ := List.cons.inj h
      rw [hv w hhead, ih hvs htail]

/-- No two rows of members have one row of entries when no two values have one tree. -/
theorem entriesOfMembers_inj {ms ns : List (String × Value)}
    (hinj : ∀ m ∈ ms, ∀ w, m.2.tree = w.tree → m.2 = w)
    (h : entriesOfMembers ms = entriesOfMembers ns) : ms = ns := by
  induction ms generalizing ns with
  | nil =>
    cases ns with
    | nil => rfl
    | cons n ns => cases h
  | cons m ms ih =>
    cases ns with
    | nil => cases h
    | cons n ns =>
      obtain ⟨hm, hms⟩ := List.forall_mem_cons.mp hinj
      obtain ⟨hhead, htail⟩ := List.cons.inj h
      obtain ⟨hkey, hvalue⟩ := Prod.mk.inj hhead
      rw [ih hms htail, Prod.ext (escapedPieces_inj hkey) (hm n.2 hvalue)]

/-- No two values have one tree. -/
theorem Value.tree_inj {v w : Value} (h : v.tree = w.tree) : v = w := by
  induction v using Value.induct generalizing w with
  | null =>
    cases w with
    | null => rfl
    | bool | number | string | array | object => cases h
  | bool b =>
    cases w with
    | bool c => exact congrArg Value.bool (Tree.bool.inj h)
    | null | number | string | array | object => cases h
  | number n =>
    cases w with
    | number m => exact congrArg Value.number (Number.literal_inj (Tree.number.inj h))
    | null | bool | string | array | object => cases h
  | string s =>
    cases w with
    | string t => exact congrArg Value.string (escapedPieces_inj (Tree.string.inj h))
    | null | bool | number | array | object => cases h
  | array items ih =>
    cases w with
    | array others =>
      exact congrArg Value.array (treesOfItems_inj (fun v hv w => ih v hv) (Tree.array.inj h))
    | null | bool | number | string | object => cases h
  | object members ih =>
    cases w with
    | object others =>
      exact congrArg Value.object
        (entriesOfMembers_inj (fun m hm w => ih m hm) (Tree.object.inj h))
    | null | bool | number | string | array => cases h

/-- No two values have one text. -/
theorem Value.text_inj {v w : Value} (h : v.text = w.text) : v = w := by
  have hspells : SpellsText v.text w.tree := h ▸ w.spells.whole
  exact Value.tree_inj (v.spells.whole.unique hspells)

/-- No two documents are stored as one text. -/
theorem encode_inj {first second : Document} (h : encode first = encode second) :
    first = second := by
  have htext : (Value.object first).text = (Value.object second).text := String.ofList_inj.mp h
  exact Value.object.inj (Value.text_inj htext)

end Settings.Json
