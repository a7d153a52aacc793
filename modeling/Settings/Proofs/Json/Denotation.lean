import Settings.Proofs.Json.Parsing
import Settings.Proofs.Json.Shape

/-!
# What stored text denotes

The denotation of a tree is said without the readers: a character is raw, escaped or
a pair of escaped surrogates, a number is what its literal is valued as, items keep
their order, and every key of an object has the value of its last occurrence. Stored
text is read as its denotation; a surrogate that is not half of a pair has none, and
so has a number out of range.
-/

namespace Settings.Json

/-! ### Strings -/

/-- The pieces that spell one character. -/
inductive CharOf : List Piece → Char → Prop where
  /-- A raw character or a short escape. -/
  | char (c : Char) : CharOf [.char c] c
  /-- An escaped unit that is no surrogate. -/
  | unit {n : Nat} (hn : n < 0xD800 ∨ 0xE000 ≤ n ∧ n < 0x10000) : CharOf [.unit n] (Char.ofNat n)
  /-- A pair of escaped surrogates. -/
  | pair {high low : Nat} (hh : 0xD800 ≤ high ∧ high < 0xDC00)
    (hl : 0xDC00 ≤ low ∧ low < 0xE000) :
    CharOf [.unit high, .unit low] (Text.pairValue high low)

/-- The pieces that spell characters. -/
inductive Decodes : List Piece → List Char → Prop where
  /-- Nothing. -/
  | nil : Decodes [] []
  /-- A character and more characters. -/
  | cons {first rest : List Piece} {c : Char} {cs : List Char} (hc : CharOf first c)
    (hrest : Decodes rest cs) : Decodes (first ++ rest) (c :: cs)

/-- Every escaped surrogate is half of a pair. -/
def Paired (pieces : List Piece) : Prop :=
  ∃ chars, Decodes pieces chars

/-- Pieces that spell one character do not start those that spell another. -/
theorem CharOf.unique {first second rest more : List Piece} {c d : Char} (h : CharOf first c)
    (h' : CharOf second d) (heq : first ++ rest = second ++ more) : c = d ∧ rest = more := by
  cases h with
  | char c =>
    cases h' with
    | char d => cases heq; exact ⟨rfl, rfl⟩
    | unit | pair => cases heq
  | @unit n hn =>
    cases h' with
    | char d => cases heq
    | unit => cases heq; exact ⟨rfl, rfl⟩
    | pair hh hl => cases heq; omega
  | @pair high low hh hl =>
    cases h' with
    | char d => cases heq
    | unit hn => cases heq; omega
    | pair => cases heq; exact ⟨rfl, rfl⟩

/-- No pieces spell two texts. -/
theorem Decodes.unique {ps : List Piece} {cs ds : List Char} (h : Decodes ps cs)
    (h' : Decodes ps ds) : cs = ds := by
  induction h generalizing ds with
  | nil =>
    generalize hnil : ([] : List Piece) = ps at h'
    cases h' with
    | nil => rfl
    | cons hc => cases hc <;> cases hnil
  | @cons first rest c cs hc hrest ih =>
    generalize hps : first ++ rest = ps at h'
    cases h' with
    | nil => cases hc <;> cases hps
    | @cons second more d ds hd hmore =>
      obtain ⟨rfl, rfl⟩ := hc.unique hd hps
      rw [ih hmore]

/-- Pieces are spelled one after another. -/
theorem PiecesText.append {first rest : List Char} {ps qs : List Piece}
    (hp : PiecesText first ps) (hq : PiecesText rest qs) :
    PiecesText (first ++ rest) (ps ++ qs) := by
  induction hp with
  | nil => exact hq
  | cons hpiece _ ih => rw [List.append_assoc]; exact .cons hpiece ih

/-- An escaped unit has four digits. -/
theorem PieceText.unit_lt {text : List Char} {n : Nat} (h : PieceText text (.unit n)) :
    n < 0x10000 := by
  cases h with
  | unit hn => exact Text.readQuad_lt hn

/-- A single piece is spelled as a string of one piece. -/
theorem PieceText.single {text : List Char} {p : Piece} (h : PieceText text p) :
    PiecesText text [p] := by
  have hcons := PiecesText.cons h .nil
  rwa [List.append_nil] at hcons

/-- The text of pieces can be cut between any two of them. -/
theorem PiecesText.cut {text : List Char} {ps qs : List Piece} (h : PiecesText text (ps ++ qs)) :
    ∃ first rest, text = first ++ rest ∧ PiecesText first ps ∧ PiecesText rest qs := by
  induction ps generalizing text with
  | nil => exact ⟨[], text, rfl, .nil, h⟩
  | cons p ps ih =>
    cases h with
    | @cons front _ _ _ hp hmore =>
      obtain ⟨first, rest, rfl, hfirst, hrest⟩ := ih hmore
      exact ⟨front ++ first, rest, (List.append_assoc _ _ _).symm, .cons hp hfirst, hrest⟩

/-- The second half of a pair that was read. -/
theorem secondHalf_ok {high : Nat} {text rest : List Char} {c : Char}
    (h : secondHalf high text = .ok (c, rest)) :
    ∃ front low, text = front ++ rest ∧ PieceText front (.unit low) ∧
      (0xDC00 ≤ low ∧ low < 0xE000) ∧ c = Text.pairValue high low := by
  unfold secondHalf at h
  split at h
  · cases h
  · cases h
  · obtain ⟨⟨low, next⟩, hq, hc⟩ := bind_ok h
    obtain ⟨d₁, d₂, d₃, d₄, rfl, hn⟩ := quad_ok hq
    dsimp only at hc
    split at hc
    · next hlow =>
      simp only [pure, Except.pure, Except.ok.injEq, Prod.mk.injEq] at hc
      obtain ⟨rfl, rfl⟩ := hc
      exact ⟨_, low, rfl, .unit hn, hlow, rfl⟩
    · cases hc
  · cases h
  · cases h

/-- A character that was read is spelled in front of the rest. -/
theorem storedChar_ok {text rest : List Char} {c : Char}
    (h : storedChar text = .ok (some c, rest)) :
    ∃ front ps, text = front ++ rest ∧ PiecesText front ps ∧ CharOf ps c := by
  obtain ⟨⟨p, next⟩, hp, hc⟩ := bind_ok h
  cases p with
  | none => cases hc
  | some p =>
    obtain ⟨front, rfl, hfront⟩ := piece_ok hp
    cases p with
    | char d => cases hc; exact ⟨front, _, rfl, hfront.single, .char c⟩
    | unit n =>
      dsimp only at hc
      split at hc
      · cases hc
      · next hlow =>
        split at hc
        · next hhigh =>
          obtain ⟨⟨d, tail⟩, hd, he⟩ := bind_ok hc
          cases he
          obtain ⟨second, low, rfl, hsecond, hl, hpair⟩ := secondHalf_ok hd
          refine ⟨front ++ second, _, (List.append_assoc _ _ _).symm,
            hfront.single.append hsecond.single, ?_⟩
          dsimp only
          rw [hpair]
          exact .pair hhigh hl
        · next hhigh =>
          have hlt := hfront.unit_lt
          simp only [pure, Except.pure, Except.ok.injEq, Prod.mk.injEq, Option.some.injEq] at hc
          obtain ⟨rfl, rfl⟩ := hc
          exact ⟨front, _, rfl, hfront.single, .unit (by omega)⟩

/-- Where no character is read there is the closing quote. -/
theorem storedChar_ok_none {text rest : List Char} (h : storedChar text = .ok (none, rest)) :
    text = '"' :: rest := by
  obtain ⟨⟨p, next⟩, hp, hc⟩ := bind_ok h
  cases p with
  | none => cases hc; exact piece_ok_none hp
  | some p =>
    cases p with
    | char d => cases hc
    | unit n =>
      dsimp only at hc
      split at hc
      · cases hc
      · split at hc
        · obtain ⟨⟨d, tail⟩, -, he⟩ := bind_ok hc
          cases he
        · cases hc

/-- The second half of a pair is read. -/
theorem secondHalf_unit {high low : Nat} {front : List Char} (h : PieceText front (.unit low))
    (hl : 0xDC00 ≤ low ∧ low < 0xE000) (rest : List Char) :
    secondHalf high (front ++ rest) = .ok (Text.pairValue high low, rest) := by
  cases h with
  | unit hn =>
    have hquad := quad_digits hn rest
    simp only [List.cons_append, List.nil_append, secondHalf, hquad, bind, Except.bind, hl,
      and_self, if_true]
    rfl

/-- A spelled character is read, whatever follows. -/
theorem CharOf.storedChar {front : List Char} {ps : List Piece} {c : Char} (h : CharOf ps c)
    (hfront : PiecesText front ps) (rest : List Char) :
    Json.storedChar (front ++ rest) = .ok (some c, rest) := by
  cases h with
  | char c =>
    cases hfront with
    | cons hp hnil =>
      cases hnil
      rw [List.append_nil, Json.storedChar, hp.piece]
      rfl
  | @unit n hn =>
    cases hfront with
    | cons hp hnil =>
      cases hnil
      have hlow : ¬(0xDC00 ≤ n ∧ n < 0xE000) := by omega
      have hhigh : ¬(0xD800 ≤ n ∧ n < 0xDC00) := by omega
      rw [List.append_nil, Json.storedChar, hp.piece]
      simp only [bind, Except.bind, hlow, hhigh, if_false]
      rfl
  | @pair high low hh hl =>
    cases hfront with
    | cons hp hmore =>
      cases hmore with
      | cons hq hnil =>
        cases hnil
        have hlow : ¬(0xDC00 ≤ high ∧ high < 0xE000) := by omega
        rw [List.append_nil, List.append_assoc, Json.storedChar, hp.piece]
        simp only [bind, Except.bind, hlow, hh, if_false, and_self, if_true,
          secondHalf_unit hq hl rest]
        rfl

/-- There are no more characters than pieces. -/
theorem Decodes.length_le {ps : List Piece} {cs : List Char} (h : Decodes ps cs) :
    cs.length ≤ ps.length := by
  induction h with
  | nil => exact Nat.le_refl _
  | cons hc _ ih =>
    rw [List.length_append, List.length_cons]
    cases hc <;> simp only [List.length_cons, List.length_nil] <;> omega

/-- Characters that were read are spelled in front of the closing quote. -/
theorem untilNone_storedChar_ok {fuel : Nat} {text rest cs : List Char}
    (h : untilNone storedChar fuel text = .ok (cs, rest)) :
    ∃ body ps, text = body ++ '"' :: rest ∧ PiecesText body ps ∧ Decodes ps cs := by
  induction fuel generalizing text cs with
  | zero => cases h
  | succ fuel ih =>
    unfold untilNone at h
    obtain ⟨⟨c, next⟩, hc, hmore⟩ := bind_ok h
    cases c with
    | none => cases hmore; exact ⟨[], [], storedChar_ok_none hc, .nil, .nil⟩
    | some c =>
      obtain ⟨⟨cs', next'⟩, hcs, he⟩ := bind_ok hmore
      cases he
      obtain ⟨front, ps, rfl, hfront, hchar⟩ := storedChar_ok hc
      obtain ⟨body, qs, rfl, hbody, hdecodes⟩ := ih hcs
      exact ⟨front ++ body, ps ++ qs, (List.append_assoc _ _ _).symm, hfront.append hbody,
        .cons hchar hdecodes⟩

/-- Spelled characters are read up to the closing quote. -/
theorem Decodes.untilNone {ps : List Piece} {cs : List Char} (h : Decodes ps cs) {fuel : Nat}
    (hf : cs.length < fuel) {body : List Char} (hbody : PiecesText body ps) (rest : List Char) :
    Json.untilNone Json.storedChar fuel (body ++ '"' :: rest) = .ok (cs, rest) := by
  induction h generalizing fuel body with
  | nil =>
    cases hbody
    cases fuel with
    | zero => omega
    | succ fuel => rfl
  | @cons first more c cs hc _ ih =>
    cases fuel with
    | zero => omega
    | succ fuel =>
      rw [List.length_cons] at hf
      obtain ⟨front, back, rfl, hfront, hback⟩ := hbody.cut
      have hfuel : cs.length < fuel := by omega
      have hrest := ih hfuel hback
      rw [List.append_assoc]
      unfold Json.untilNone
      rw [hc.storedChar hfront]
      simp only [bind, Except.bind, hrest]
      rfl

/-- The reader of stored strings decodes their pieces. -/
theorem readsPieces_storedString :
    ReadsPieces storedString fun ps s => Decodes ps s.toList := by
  intro text s rest
  constructor
  · intro h
    obtain ⟨⟨cs, next⟩, hcs, he⟩ := bind_ok h
    cases he
    obtain ⟨body, ps, ht, hbody, hdecodes⟩ := untilNone_storedChar_ok hcs
    refine ⟨body, ps, ht, hbody, ?_⟩
    show Decodes ps (String.ofList cs).toList
    rwa [String.toList_ofList]
  · rintro ⟨body, ps, rfl, hbody, hdecodes⟩
    have hcs := hdecodes.length_le
    have hps := hbody.length_le
    have hfuel : s.toList.length < (body ++ '"' :: rest).length + 1 := by
      rw [List.length_append]
      omega
    have hread := hdecodes.untilNone hfuel hbody rest
    simp only [storedString, hread, bind, Except.bind]
    rw [String.ofList_toList]
    rfl

/-! ### Members -/

/-- The value of the last entry under a key. -/
def last? {κ α : Type} [BEq κ] (key : κ) (entries : List (κ × α)) : Option α :=
  entries.reverse.lookup key

namespace Members

variable {α : Type}

/-- Under a key of entries stands the value of the last one. -/
theorem find?_ofEntries (key : String) (entries : List (String × α)) :
    find? key (ofEntries entries) = last? key entries := by
  induction entries using List.reverseRecOn with
  | nil => rfl
  | append_singleton entries entry ih =>
    rw [ofEntries, List.foldl_append, List.foldl_cons, List.foldl_nil, last?, List.reverse_concat,
      List.lookup_cons]
    by_cases h : key = entry.1
    · rw [h, find?_insert_self, beq_self_eq_true]
    · rw [find?_insert_other h, beq_false_of_ne h]
      exact ih

/-- A key below all others is not found among them. -/
theorem find?_of_lt {key : String} {members : Members α}
    (h : ∀ member ∈ members, key < member.1) : find? key members = none :=
  find?_eq_none fun member hm he => String.lt_irrefl _ (he ▸ h member hm)

/-- Members whose keys ascend are known by what is found under each key. -/
theorem ext_find? {first second : Members α} (hf : Ascending first) (hs : Ascending second)
    (h : ∀ key, find? key first = find? key second) : first = second := by
  induction first generalizing second with
  | nil =>
    cases second with
    | nil => rfl
    | cons member rest => have hk := h member.1; simp [find?] at hk
  | cons member rest ih =>
    obtain ⟨key, value⟩ := member
    obtain ⟨hkey, hrest⟩ := List.pairwise_cons.mp hf
    cases second with
    | nil => have hk := h key; simp [find?] at hk
    | cons member' rest' =>
      obtain ⟨key', value'⟩ := member'
      obtain ⟨hkey', hrest'⟩ := List.pairwise_cons.mp hs
      -- the smaller of two different first keys would be found on one side only
      have hle : ¬key < key' := by
        intro hlt
        have hnone : find? key ((key', value') :: rest') = none := find?_of_lt <|
          List.forall_mem_cons.mpr ⟨hlt, fun m hm => String.lt_trans hlt (hkey' m hm)⟩
        have hk := h key
        rw [hnone, find?, if_pos rfl] at hk
        cases hk
      have hge : ¬key' < key := by
        intro hlt
        have hnone : find? key' ((key, value) :: rest) = none := find?_of_lt <|
          List.forall_mem_cons.mpr ⟨hlt, fun m hm => String.lt_trans hlt (hkey m hm)⟩
        have hk := h key'
        rw [hnone, find?, if_pos rfl] at hk
        cases hk
      obtain rfl : key = key' := String.le_antisymm (String.not_lt.mp hge) (String.not_lt.mp hle)
      have hvalue := h key
      rw [find?, if_pos rfl, find?, if_pos rfl, Option.some.injEq] at hvalue
      rw [hvalue, ih hrest hrest' fun other => ?_]
      by_cases ho : other = key
      · rw [ho, find?_of_lt hkey, find?_of_lt hkey']
      · have hother := h other
        rwa [find?, if_neg ho, find?, if_neg ho] at hother

/-- Members are those of entries exactly when their keys ascend and each has the value
of its last entry. -/
theorem eq_ofEntries_iff {members : Members α} {entries : List (String × α)} :
    members = ofEntries entries ↔
      Ascending members ∧ ∀ key, find? key members = last? key entries := by
  constructor
  · rintro rfl
    exact ⟨ascending_ofEntries entries, fun key => find?_ofEntries key entries⟩
  · rintro ⟨hasc, hfind⟩
    exact ext_find? hasc (ascending_ofEntries entries) fun key => by
      rw [hfind, find?_ofEntries]

end Members

/-! ### Values -/

/-- What the parts of a stored text denote. -/
def denotation : Meaning String Value where
  null := .null
  bool := .bool
  number literal v := ∃ n, literal.number = .ok n ∧ v = .number n
  key pieces s := Decodes pieces s.toList
  text := .string
  array := .array
  object entries v := ∃ members, v = .object members ∧ Members.Ascending members ∧
    ∀ key, Members.find? key members = last? key entries

/-- A tree denotes a stored value. -/
abbrev Tree.Denotes (tree : Tree) (v : Value) : Prop :=
  denotation.Of tree v

/-- What the reader of stored text makes of a tree is its denotation. -/
theorem meaning_stored : stored.meaning denotation.key = denotation := by
  have hnumber : (stored.meaning denotation.key).number = denotation.number := by
    funext literal v
    have hvalue : stored.number literal = literal.number.map Value.number := rfl
    show (stored.number literal = .ok v) = ∃ n, literal.number = .ok n ∧ v = .number n
    rw [hvalue, eq_iff_iff]
    cases literal.number with
    | error unseen => exact ⟨nofun, fun ⟨n, hn, _⟩ => by cases hn⟩
    | ok n =>
      constructor
      · intro h; cases h; exact ⟨n, rfl, rfl⟩
      · rintro ⟨m, hm, rfl⟩; cases hm; rfl
  have hobject : (stored.meaning denotation.key).object = denotation.object := by
    funext entries v
    show (v = .object (Members.ofEntries entries)) = ∃ members, v = .object members ∧
      Members.Ascending members ∧ ∀ key, Members.find? key members = last? key entries
    rw [eq_iff_iff]
    constructor
    · intro h
      exact ⟨_, h, Members.eq_ofEntries_iff.mp rfl⟩
    · rintro ⟨members, rfl, hmembers⟩
      rw [Members.eq_ofEntries_iff.mpr hmembers]
  exact congrArg₂ (fun number object =>
    { stored.meaning denotation.key with number := number, object := object }) hnumber hobject

/-- Characters are read as a stored value exactly when they spell a tree that nests at
most 127 deep and denotes this value. -/
theorem read_ok_iff {text : List Char} {v : Value} :
    read text = .ok v ↔ ∃ tree, SpellsText text tree ∧ tree.depth ≤ 127 ∧ tree.Denotes v := by
  have hwhole : read text = .ok v ↔ ∃ tree, SpellsText text tree ∧
      tree.depth ≤ greatestDepth ∧ (stored.meaning denotation.key).Of tree v :=
    whole_ok_iff readsPieces_storedString
  rw [meaning_stored] at hwhole
  exact hwhole

/-- Stored text is read as a value exactly when its characters are. -/
theorem decode_ok_iff {text : String} {v : Value} :
    decode text = .ok v ↔
      ∃ tree, SpellsText text.toList tree ∧ tree.depth ≤ 127 ∧ tree.Denotes v := by
  have hread : decode text = .ok v ↔ read text.toList = .ok v := by
    unfold decode
    cases read text.toList with
    | error failure => exact ⟨nofun, nofun⟩
    | ok w => exact ⟨fun h => by cases h; rfl, fun h => by cases h; rfl⟩
  exact hread.trans read_ok_iff

/-- A tree denotes a value exactly when its surrogates come in pairs and its numbers are
in range. -/
theorem exists_denotes_iff (tree : Tree) :
    (∃ v, tree.Denotes v) ↔
      (∀ ps ∈ tree.strings, Paired ps) ∧ ∀ l ∈ tree.literals, ∃ n, l.number = .ok n := by
  have htotal : ∀ entries, ∃ v, denotation.object entries v := fun entries =>
    ⟨_, Members.ofEntries entries, rfl, Members.eq_ofEntries_iff.mp rfl⟩
  have hkey (ps : List Piece) : (∃ s, denotation.key ps s) ↔ Paired ps :=
    ⟨fun ⟨s, hs⟩ => ⟨_, hs⟩, fun ⟨cs, hcs⟩ => ⟨String.ofList cs, by
      show Decodes ps (String.ofList cs).toList
      rwa [String.toList_ofList]⟩⟩
  have hnumber (l : Literal) : (∃ v, denotation.number l v) ↔ ∃ n, l.number = .ok n :=
    ⟨fun ⟨_, n, hn, _⟩ => ⟨n, hn⟩, fun ⟨n, hn⟩ => ⟨_, n, hn, rfl⟩⟩
  simp only [Tree.Denotes, Meaning.exists_of_iff htotal tree, hkey, hnumber]

end Settings.Json
