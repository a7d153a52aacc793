/-!
# Text as 16-bit units

A scalar value below U+10000 is one unit, any other is a pair of surrogates.
Reading units back replaces each surrogate that is not part of a pair by
U+FFFD, so units written from scalar values are read back unchanged, which is
the main statement.
-/

namespace Settings.Text

/-- The units of a text that a script holds; surrogates may stand alone. -/
abbrev Units := List UInt16

/-- The scalar value that stands for an unpaired surrogate. -/
def replacement : Char := Char.ofNat 0xFFFD

/-- Units 0xD800 to 0xDBFF open a pair. -/
def opensPair (unit : UInt16) : Bool :=
  decide (0xD800 ≤ unit.toNat) && decide (unit.toNat < 0xDC00)

/-- Units 0xDC00 to 0xDFFF close a pair. -/
def closesPair (unit : UInt16) : Bool :=
  decide (0xDC00 ≤ unit.toNat) && decide (unit.toNat < 0xE000)

/-- The scalar value of a surrogate pair. -/
def pairValue (high low : Nat) : Char :=
  Char.ofNat (0x10000 + (high - 0xD800) * 0x400 + (low - 0xDC00))

/-- One unit below U+10000, two from there on. -/
def unitsOfChar (c : Char) : Units :=
  if c.toNat < 0x10000 then [c.toNat.toUInt16]
  else
    [(0xD800 + (c.toNat - 0x10000) / 0x400).toUInt16,
      (0xDC00 + (c.toNat - 0x10000) % 0x400).toUInt16]

/-- The units of a text of scalar values. -/
def encodeUnits (chars : List Char) : Units :=
  chars.flatMap unitsOfChar

/-- Pairs are joined and a surrogate without its partner is replaced. -/
def decodeUnits : Units → List Char
  | [] => []
  | [unit] =>
    [if opensPair unit || closesPair unit then replacement else Char.ofNat unit.toNat]
  | first :: second :: rest =>
    if opensPair first && closesPair second then
      pairValue first.toNat second.toNat :: decodeUnits rest
    else
      (if opensPair first || closesPair first then replacement
        else Char.ofNat first.toNat) :: decodeUnits (second :: rest)

/-- The units of a string. -/
def unitsOf (text : String) : Units :=
  encodeUnits text.toList

/-- The string that a host reads from units. -/
def hostText (units : Units) : String :=
  String.ofList (decodeUnits units)

/-! ### Units of scalar values are read back -/

/-- A scalar value is no surrogate. -/
theorem char_toNat_cases (c : Char) :
    c.toNat < 0xD800 ∨ (0xDFFF < c.toNat ∧ c.toNat < 0x110000) :=
  c.valid

/-- The two units of a large scalar value give it back. -/
theorem pairValue_of_large (c : Char) (h : 0x10000 ≤ c.toNat) :
    pairValue (0xD800 + (c.toNat - 0x10000) / 0x400).toUInt16.toNat
      (0xDC00 + (c.toNat - 0x10000) % 0x400).toUInt16.toNat = c := by
  have hc := char_toNat_cases c
  have h1 : (0xD800 + (c.toNat - 0x10000) / 0x400).toUInt16.toNat =
      0xD800 + (c.toNat - 0x10000) / 0x400 := by
    rw [Nat.toUInt16_eq, UInt16.toNat_ofNat']; omega
  have h2 : (0xDC00 + (c.toNat - 0x10000) % 0x400).toUInt16.toNat =
      0xDC00 + (c.toNat - 0x10000) % 0x400 := by
    rw [Nat.toUInt16_eq, UInt16.toNat_ofNat']; omega
  have h3 : 0x10000 + (0xD800 + (c.toNat - 0x10000) / 0x400 - 0xD800) * 0x400 +
      (0xDC00 + (c.toNat - 0x10000) % 0x400 - 0xDC00) = c.toNat := by omega
  rw [pairValue, h1, h2, h3, Char.ofNat_toNat]

/-- A character is one unit that is no surrogate, or a pair of surrogates. -/
theorem unitsOfChar_cases (c : Char) :
    (∃ unit, unitsOfChar c = [unit] ∧ opensPair unit = false ∧ closesPair unit = false ∧
      Char.ofNat unit.toNat = c) ∨
    ∃ high low, unitsOfChar c = [high, low] ∧ opensPair high = true ∧ closesPair low = true ∧
      pairValue high.toNat low.toNat = c := by
  have hc := char_toNat_cases c
  by_cases h : c.toNat < 0x10000
  · have hu : c.toNat.toUInt16.toNat = c.toNat := by
      rw [Nat.toUInt16_eq, UInt16.toNat_ofNat']; omega
    have ho : opensPair c.toNat.toUInt16 = false := by
      simp only [opensPair, hu, Bool.and_eq_false_iff, decide_eq_false_iff_not]; omega
    have hs : closesPair c.toNat.toUInt16 = false := by
      simp only [closesPair, hu, Bool.and_eq_false_iff, decide_eq_false_iff_not]; omega
    exact .inl ⟨_, if_pos h, ho, hs, by rw [hu, Char.ofNat_toNat]⟩
  · have ho : opensPair (0xD800 + (c.toNat - 0x10000) / 0x400).toUInt16 = true := by
      simp only [opensPair, Nat.toUInt16_eq, UInt16.toNat_ofNat', Bool.and_eq_true,
        decide_eq_true_eq]; omega
    have hs : closesPair (0xDC00 + (c.toNat - 0x10000) % 0x400).toUInt16 = true := by
      simp only [closesPair, Nat.toUInt16_eq, UInt16.toNat_ofNat', Bool.and_eq_true,
        decide_eq_true_eq]; omega
    exact .inr ⟨_, _, if_neg h, ho, hs, pairValue_of_large c (by omega)⟩

/-- The units of a character are read back as that character. -/
theorem decodeUnits_unitsOfChar (c : Char) (rest : Units) :
    decodeUnits (unitsOfChar c ++ rest) = c :: decodeUnits rest := by
  rcases unitsOfChar_cases c with ⟨unit, hunits, ho, hs, hchar⟩ | ⟨high, low, hunits, ho, hs, hchar⟩
  · rw [hunits, List.singleton_append]
    cases rest with
    | nil => simp only [decodeUnits, ho, hs, Bool.or_self, Bool.false_eq_true, if_false, hchar]
    | cons second rest =>
      simp only [decodeUnits, ho, hs, Bool.or_self, Bool.false_and, Bool.false_eq_true, if_false,
        hchar]
  · simp only [hunits, List.cons_append, List.nil_append, decodeUnits, ho, hs, Bool.and_self,
      if_true, hchar]

/-- The units of scalar values are read back as those values. -/
theorem decodeUnits_encodeUnits (chars : List Char) : decodeUnits (encodeUnits chars) = chars := by
  induction chars with
  | nil => rfl
  | cons c rest ih =>
    rw [encodeUnits, List.flatMap_cons, decodeUnits_unitsOfChar]
    exact congrArg _ ih

/-- A string is read back from its units unchanged. -/
theorem hostText_unitsOf (text : String) : hostText (unitsOf text) = text := by
  rw [hostText, unitsOf, decodeUnits_encodeUnits, String.ofList_toList]

/-- Different strings have different units. -/
theorem unitsOf_inj {s t : String} : unitsOf s = unitsOf t ↔ s = t := by
  refine ⟨fun h => ?_, congrArg _⟩
  rw [← hostText_unitsOf s, h, hostText_unitsOf]

end Settings.Text
