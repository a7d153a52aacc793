import Settings.Json.Reader
import Settings.Proofs.Json.Finite
import Settings.Proofs.Json.Quotation
import Settings.Proofs.Json.Row

/-!
# A written value is read back

The text of a value is read as a value of the same shape, in which only doubles
may have changed: a double becomes what the reader makes of its own text. How
many containers may be open decides alone whether the text is read at all, and a
value that is nested deeper is refused wherever its text stands. Both statements
are about any continuation that ends a number, so that they pass from items to
the containers around them.
-/

namespace Settings.Json

open Binary (double)

/-! ### What a text makes of a value -/

/-- The double that the text of a double is read as. The text of a double is
always read as a double, so the second case does not arise. -/
def rereadFloat (x : Binary.Finite double) : Binary.Finite double :=
  match (storedLiteral x).number with
  | .ok (.float y) => y
  | _ => x

/-- The number that the text of a number is read as. -/
def Number.reread : Number → Number
  | .integer n h => .integer n h
  | .float x => .float (rereadFloat x)

mutual

/-- The value that the text of a value is read as. -/
def Value.reread : Value → Value
  | .null => .null
  | .bool b => .bool b
  | .number n => .number n.reread
  | .string s => .string s
  | .array items => .array (rereadItems items)
  | .object members => .object (Members.ofEntries (rereadMembers members))

/-- The items that the texts of items are read as. -/
def rereadItems : List Value → List Value
  | [] => []
  | item :: rest => item.reread :: rereadItems rest

/-- The members that the texts of members are read as, under their keys. -/
def rereadMembers : List (String × Value) → List (String × Value)
  | [] => []
  | (key, value) :: rest => (key, value.reread) :: rereadMembers rest

end

/-! ### Numbers -/

/-- The literal as which a number is stored. -/
def Number.literal : Number → Literal
  | .integer n _ => integerLiteral n
  | .float x => storedLiteral x

/-- A number is stored as its literal. -/
theorem Number.literal_text (n : Number) : n.literal.text = n.text := by
  cases n with
  | integer n h => exact integerLiteral_text n
  | float x => exact storedLiteral_text x

/-- The literal of a number keeps to the grammar. -/
theorem Number.literal_proper (n : Number) : n.literal.Proper := by
  cases n with
  | integer n h => exact integerLiteral_proper n
  | float x => exact storedLiteral_proper x

/-- The literal of a number is valued as what the number is reread as. -/
theorem Number.literal_number (n : Number) : n.literal.number = .ok n.reread := by
  cases n with
  | integer n h => exact integerLiteral_number n h
  | float x =>
    obtain ⟨y, hy, -⟩ := storedLiteral_number x
    rw [Number.literal, Number.reread, rereadFloat, hy]

/-- The text of a number is read up to what ends it. -/
theorem number_text (n : Number) {rest : List Char} (hr : EndsNumber rest) :
    number stored (n.text ++ rest) = .ok (.number n.reread, rest) := by
  have hl := Json.literal_text n.literal_proper hr
  rw [Number.literal_text] at hl
  have hv : stored.number n.literal = .ok (.number n.reread) := by
    show n.literal.number.map Value.number = _
    rw [Number.literal_number]
    rfl
  simp only [number, hl, bind, Except.bind, hv, pure, Except.pure]

/-- The text of a number starts with a minus sign or a digit. -/
theorem Number.text_head (n : Number) :
    ∃ c cs, n.text = c :: cs ∧ (c = '-' ∨ c.isDigit = true) := by
  have hp := n.literal_proper
  rw [← Number.literal_text, Literal.text]
  cases n.literal.negative with
  | true => exact ⟨'-', _, rfl, Or.inl rfl⟩
  | false =>
    cases hw : n.literal.whole with
    | nil => exact absurd hw hp.whole_ne_nil
    | cons c cs =>
      exact ⟨c, _, rfl, Or.inr (hp.whole_digits c (by rw [hw]; exact List.mem_cons_self))⟩

/-! ### Where a value starts -/

/-- A digit is none of the characters that open another kind of value. -/
theorem ne_opening_of_isDigit {c : Char} (h : c.isDigit = true) :
    c ≠ 'n' ∧ c ≠ 't' ∧ c ≠ 'f' ∧ c ≠ '"' ∧ c ≠ '[' ∧ c ≠ '{' ∧ Starts c := by
  have hblank : isBlank c = false := by
    unfold isBlank
    simp only [Bool.or_eq_false_iff, decide_eq_false_iff_not]
    refine ⟨⟨⟨?_, ?_⟩, ?_⟩, ?_⟩ <;> (rintro rfl; exact absurd h (by decide))
  refine ⟨?_, ?_, ?_, ?_, ?_, ?_, hblank, ?_, ?_⟩
  all_goals rintro rfl; exact absurd h (by decide)

/-- The characters that open a value other than a digit. -/
theorem starts_of_opening {c : Char} (h : c ∈ ['n', 't', 'f', '"', '[', '{', '-']) :
    Starts c := by
  simp only [List.mem_cons, List.not_mem_nil, or_false] at h
  rcases h with rfl | rfl | rfl | rfl | rfl | rfl | rfl <;>
    exact ⟨by decide, by decide, by decide⟩

/-- The text of a value is not empty and starts a value. -/
theorem Value.startsText (v : Value) : StartsText v.text := by
  cases v with
  | null => exact ⟨_, _, by rw [Value.text], starts_of_opening (by simp)⟩
  | bool b =>
    cases b with
    | false => exact ⟨_, _, by rw [Value.text], starts_of_opening (by simp)⟩
    | true => exact ⟨_, _, by rw [Value.text], starts_of_opening (by simp)⟩
  | number n =>
    obtain ⟨c, cs, ht, hc⟩ := n.text_head
    refine ⟨c, cs, by rw [Value.text, ht], ?_⟩
    rcases hc with rfl | hc
    · exact starts_of_opening (by simp)
    · obtain ⟨-, -, -, -, -, -, hs⟩ := ne_opening_of_isDigit hc
      exact hs
  | string s => exact ⟨_, _, by rw [Value.text, quote], starts_of_opening (by simp)⟩
  | array items =>
    cases items with
    | nil => exact ⟨_, _, by rw [Value.text], starts_of_opening (by simp)⟩
    | cons v vs => exact ⟨_, _, by rw [Value.text], starts_of_opening (by simp)⟩
  | object members =>
    cases members with
    | nil => exact ⟨_, _, by rw [Value.text], starts_of_opening (by simp)⟩
    | cons m ms =>
      obtain ⟨k, v⟩ := m
      exact ⟨_, _, by rw [Value.text], starts_of_opening (by simp)⟩

/-! ### Scalars -/

/-- What starts as a number is read as one. -/
theorem value_number {τ α : Type} (target : Target τ α) (inner : Option (Reader α)) {c : Char}
    (h : c = '-' ∨ c.isDigit = true) (rest : List Char) :
    value target inner (c :: rest) = number target (c :: rest) := by
  have hne : c ≠ 'n' ∧ c ≠ 't' ∧ c ≠ 'f' ∧ c ≠ '"' ∧ c ≠ '[' ∧ c ≠ '{' ∧ isBlank c = false := by
    rcases h with rfl | h
    · decide
    · obtain ⟨h1, h2, h3, h4, h5, h6, hs⟩ := ne_opening_of_isDigit h
      exact ⟨h1, h2, h3, h4, h5, h6, hs.not_blank⟩
  obtain ⟨h1, h2, h3, h4, h5, h6, h7⟩ := hne
  unfold value
  rw [skipBlanks_cons h7]
  split
  · next he => cases he
  · next he => injection he with he _; exact absurd he h1
  · next he => injection he with he _; exact absurd he h2
  · next he => injection he with he _; exact absurd he h3
  · next he => injection he with he _; exact absurd he h4
  · next he => injection he with he _; exact absurd he h5
  · next he => injection he with he _; exact absurd he h6
  · next he =>
    injection he with hc hr
    subst hc hr
    rw [if_pos h]

/-- A scalar is read back however many containers may be opened. -/
theorem value_scalar (inner : Option (Reader Value)) {v : Value} (h : v.depth = 0)
    {rest : List Char} (hr : EndsNumber rest) :
    value stored inner (v.text ++ rest) = .ok (v.reread, rest) := by
  cases v with
  | null => rw [Value.text, Value.reread]; rfl
  | bool b => cases b <;> rw [Value.text, Value.reread] <;> rfl
  | number n =>
    obtain ⟨c, cs, ht, hc⟩ := n.text_head
    have hn := number_text n hr
    rw [Value.text, Value.reread, ht, List.cons_append, value_number stored inner hc,
      ← List.cons_append, ← ht, hn]
  | string s =>
    have hs := storedString_quoted s rest
    have hv : stored.string = storedString := rfl
    have hw : stored.text s = .string s := rfl
    rw [Value.text, Value.reread, quote, List.cons_append, List.append_assoc, List.singleton_append]
    unfold value
    rw [skipBlanks_cons (by decide)]
    simp only [hv, hs, bind, Except.bind, hw, pure, Except.pure]
  | array items => rw [Value.depth] at h; omega
  | object members => rw [Value.depth] at h; omega

/-! ### Containers -/

/-- A square bracket closes. -/
theorem closes_bracket : Closes ']' := ⟨by decide⟩

/-- A brace closes. -/
theorem closes_brace : Closes '}' := ⟨by decide⟩

/-- The text of one member. -/
def memberText (member : String × Value) : List Char :=
  quote member.1.toList ++ ':' :: member.2.text

/-- The items after the first one are a row of texts. -/
theorem textOfItems_eq (vs : List Value) : textOfItems vs = rowText ']' (vs.map Value.text) := by
  induction vs with
  | nil => rw [textOfItems, List.map_nil, rowText]
  | cons v vs ih => rw [textOfItems, List.map_cons, rowText, ih]

/-- The members after the first one are a row of texts. -/
theorem textOfMembers_eq (ms : List (String × Value)) :
    textOfMembers ms = rowText '}' (ms.map memberText) := by
  induction ms with
  | nil => rw [textOfMembers, List.map_nil, rowText]
  | cons m ms ih =>
    obtain ⟨k, v⟩ := m
    rw [textOfMembers, List.map_cons, rowText, ih, memberText, List.append_assoc,
      List.cons_append]

/-- An array that is not empty is its brackets and a row. -/
theorem text_array_cons (v : Value) (vs : List Value) :
    (Value.array (v :: vs)).text = '[' :: (v.text ++ rowText ']' (vs.map Value.text)) := by
  rw [Value.text, textOfItems_eq]

/-- An object that is not empty is its braces and a row. -/
theorem text_object_cons (m : String × Value) (ms : List (String × Value)) :
    (Value.object (m :: ms)).text = '{' :: (memberText m ++ rowText '}' (ms.map memberText)) := by
  obtain ⟨k, v⟩ := m
  rw [Value.text, textOfMembers_eq, memberText, List.append_assoc, List.cons_append]

/-- The text of a member starts with a quote. -/
theorem startsText_member (m : String × Value) : StartsText (memberText m) :=
  ⟨_, _, rfl, starts_of_opening (by simp)⟩

/-- The texts of items start values. -/
theorem startsText_items (vs : List Value) : ∀ text ∈ vs.map Value.text, StartsText text :=
  List.forall_mem_map.mpr fun v _ => v.startsText

/-- The texts of members start with their keys. -/
theorem startsText_members (ms : List (String × Value)) :
    ∀ text ∈ ms.map memberText, StartsText text :=
  List.forall_mem_map.mpr fun m _ => startsText_member m

/-- Items are reread one by one. -/
theorem rereadItems_eq (vs : List Value) : rereadItems vs = vs.map Value.reread := by
  induction vs with
  | nil => rw [rereadItems, List.map_nil]
  | cons v vs ih => rw [rereadItems, List.map_cons, ih]

/-- The values of members are reread one by one. -/
theorem rereadMembers_eq (ms : List (String × Value)) :
    rereadMembers ms = ms.map fun m => (m.1, m.2.reread) := by
  induction ms with
  | nil => rw [rereadMembers, List.map_nil]
  | cons m ms ih => obtain ⟨k, v⟩ := m; rw [rereadMembers, List.map_cons, ih]

/-- The key of a member and its colon are read before its value. -/
theorem member_quoted (item : Reader Value) (m : String × Value) (rest : List Char) :
    member storedString item (memberText m ++ rest) = (do
      let (x, rest) ← item (m.2.text ++ rest)
      return ((m.1, x), rest)) := by
  have hk := storedString_quoted m.1 (':' :: (m.2.text ++ rest))
  have htext : memberText m ++ rest =
      '"' :: (m.1.toList.flatMap escapeChar ++ '"' :: ':' :: (m.2.text ++ rest)) := by
    simp only [memberText, quote, List.cons_append, List.append_assoc, List.nil_append]
  rw [htext, member]
  simp only [hk, bind, Except.bind]
  rw [skipBlanks_cons (by decide)]
  rfl

/-- A member is taken when its value is. -/
theorem takes_member {item : Reader Value} {m : String × Value} {x : Value}
    (h : Takes item m.2.text x) : Takes (member storedString item) (memberText m) (m.1, x) := by
  intro rest hr
  rw [member_quoted, h rest hr]
  rfl

/-- A member is refused when its value is. -/
theorem refuses_member {item : Reader Value} {m : String × Value} (h : Refuses item m.2.text) :
    Refuses (member storedString item) (memberText m) := by
  intro rest hr
  obtain ⟨failure, hf⟩ := h rest hr
  exact ⟨failure, by rw [member_quoted, hf]; rfl⟩

/-- An opening bracket is followed by items. -/
theorem value_bracket (item : Reader Value) (rest : List Char) :
    value stored (some item) ('[' :: rest) = (do
      let (xs, rest) ← items item rest
      return (Value.array xs, rest)) := rfl

/-- An opening brace is followed by members. -/
theorem value_brace (item : Reader Value) (rest : List Char) :
    value stored (some item) ('{' :: rest) = (do
      let (ms, rest) ← members (member storedString item) rest
      return (Value.object (Members.ofEntries ms), rest)) := rfl

/-- An array is read back when its items are. -/
theorem takes_array {item : Reader Value} {vs : List Value}
    (h : ∀ v ∈ vs, Takes item v.text v.reread) :
    Takes (value stored (some item)) (Value.array vs).text (Value.array vs).reread := by
  intro rest _
  cases vs with
  | nil => rw [Value.text, Value.reread, rereadItems]; rfl
  | cons v vs =>
    have hall : List.Forall₂ (Takes item) ((v :: vs).map Value.text)
        ((v :: vs).map Value.reread) := by
      rw [List.forall₂_map_left_iff, List.forall₂_map_right_iff, List.forall₂_same]
      exact h
    have hrow := (enclosed_items item).first_text closes_bracket hall
      (startsText_items (v :: vs)) rest
    rw [text_array_cons, List.cons_append, List.append_assoc, value_bracket, hrow, Value.reread,
      rereadItems_eq]
    rfl

/-- An object is read back when the values of its members are. -/
theorem takes_object {item : Reader Value} {ms : List (String × Value)}
    (h : ∀ m ∈ ms, Takes item m.2.text m.2.reread) :
    Takes (value stored (some item)) (Value.object ms).text (Value.object ms).reread := by
  intro rest _
  cases ms with
  | nil => rw [Value.text, Value.reread, rereadMembers]; rfl
  | cons m ms =>
    have hall : List.Forall₂ (Takes (member storedString item)) ((m :: ms).map memberText)
        ((m :: ms).map fun m => (m.1, m.2.reread)) := by
      rw [List.forall₂_map_left_iff, List.forall₂_map_right_iff, List.forall₂_same]
      exact fun m hm => takes_member (h m hm)
    have hrow := (enclosed_members (member storedString item)).first_text closes_brace hall
      (startsText_members (m :: ms)) rest
    rw [text_object_cons, List.cons_append, List.append_assoc, value_brace, hrow, Value.reread,
      rereadMembers_eq]
    rfl

/-- An array is refused when one of its items is. -/
theorem refuses_array {item : Reader Value} {vs : List Value}
    (h : ∀ v ∈ vs, (∃ x, Takes item v.text x) ∨ Refuses item v.text)
    (hex : ∃ v ∈ vs, Refuses item v.text) :
    Refuses (value stored (some item)) (Value.array vs).text := by
  intro rest _
  cases vs with
  | nil => obtain ⟨v, hv, -⟩ := hex; cases hv
  | cons v vs =>
    obtain ⟨w, hw, hr⟩ := hex
    have hall : ∀ t ∈ (v :: vs).map Value.text, (∃ x, Takes item t x) ∨ Refuses item t :=
      List.forall_mem_map.mpr h
    rw [List.map_cons] at hall
    obtain ⟨failure, hf⟩ := (enclosed_items item).first_refuses closes_bracket hall
      ⟨w.text, List.mem_map_of_mem hw, hr⟩
      (startsText_items (v :: vs)) rest
    exact ⟨failure, by
      rw [text_array_cons, List.cons_append, List.append_assoc, value_bracket, hf]; rfl⟩

/-- An object is refused when the value of one of its members is. -/
theorem refuses_object {item : Reader Value} {ms : List (String × Value)}
    (h : ∀ m ∈ ms, (∃ x, Takes item m.2.text x) ∨ Refuses item m.2.text)
    (hex : ∃ m ∈ ms, Refuses item m.2.text) :
    Refuses (value stored (some item)) (Value.object ms).text := by
  intro rest _
  cases ms with
  | nil => obtain ⟨m, hm, -⟩ := hex; cases hm
  | cons m ms =>
    have hmember : ∀ m' ∈ m :: ms, (∃ x, Takes (member storedString item) (memberText m') x) ∨
        Refuses (member storedString item) (memberText m') := by
      intro m' hm
      rcases h m' hm with ⟨x, hx⟩ | hr
      · exact Or.inl ⟨_, takes_member hx⟩
      · exact Or.inr (refuses_member hr)
    obtain ⟨w, hw, hr⟩ := hex
    have hall : ∀ t ∈ (m :: ms).map memberText,
        (∃ x, Takes (member storedString item) t x) ∨ Refuses (member storedString item) t :=
      List.forall_mem_map.mpr hmember
    rw [List.map_cons] at hall
    obtain ⟨failure, hf⟩ := (enclosed_members (member storedString item)).first_refuses closes_brace
      hall ⟨memberText w, List.mem_map_of_mem hw, refuses_member hr⟩
      (startsText_members (m :: ms)) rest
    exact ⟨failure, by
      rw [text_object_cons, List.cons_append, List.append_assoc, value_brace, hf]; rfl⟩

end Settings.Json
