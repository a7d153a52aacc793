import Settings.Json.Quotation
import Settings.Json.Writer

/-!
# Quoted strings are read back

Every character is written so that the reader of stored text takes exactly it:
the characters with a short escape, the others below U+0020 as four hexadecimal
digits, all else as they are. Only an unescaped quote ends a string, and no
character is written as one.
-/

namespace Settings.Text

/-- A hexadecimal digit is read back. -/
theorem hexValue_digitChar {d : Nat} (h : d < 16) : hexValue? d.digitChar = some d := by
  have hall : ∀ d < 16, hexValue? d.digitChar = some d := by decide
  exact hall d h

/-- The four digits of a number below 65536 are read back. -/
theorem readQuad_hexQuad {n : Nat} (h : n < 65536) :
    readQuad? (n / 4096 % 16).digitChar (n / 256 % 16).digitChar (n / 16 % 16).digitChar
      (n % 16).digitChar = some n := by
  have h16 (m : Nat) : m % 16 < 16 := Nat.mod_lt m (by decide)
  simp only [readQuad?, hexValue_digitChar (h16 _), bind, Option.bind, pure]
  congr 1
  omega

/-- A hexadecimal digit has a value below sixteen. -/
theorem hexValue_lt {c : Char} {d : Nat} (h : hexValue? c = some d) : d < 16 := by
  have hle (a b : Char) : a ≤ b ↔ a.toNat ≤ b.toNat := Iff.rfl
  unfold hexValue? at h
  simp only [hle] at h
  split at h
  · next hc =>
    injection h with h
    have h9 : '9'.toNat = 57 := rfl
    omega
  · split at h
    · next hc =>
      injection h with h
      have hf : 'f'.toNat = 102 := rfl
      omega
    · split at h
      · next hc =>
        injection h with h
        have hf : 'F'.toNat = 70 := rfl
        omega
      · cases h

/-- Four digits have a value below 65536. -/
theorem readQuad_lt {a b c d : Char} {n : Nat} (h : readQuad? a b c d = some n) :
    n < 65536 := by
  unfold readQuad? at h
  obtain ⟨x, hx, h⟩ := Option.bind_eq_some_iff.mp h
  obtain ⟨y, hy, h⟩ := Option.bind_eq_some_iff.mp h
  obtain ⟨z, hz, h⟩ := Option.bind_eq_some_iff.mp h
  obtain ⟨w, hw, h⟩ := Option.bind_eq_some_iff.mp h
  injection h with h
  have hx := hexValue_lt hx
  have hy := hexValue_lt hy
  have hz := hexValue_lt hz
  have hw := hexValue_lt hw
  omega

end Settings.Text

namespace Settings.Json

/-- Four characters are at least four bytes. -/
theorem four_le_byteLength (a b c d : Char) (rest : List Char) :
    4 ≤ Text.byteLength ((a :: b :: c :: d :: rest).take 4) := by
  have ha := a.utf8Size_pos
  have hb := b.utf8Size_pos
  have hc := c.utf8Size_pos
  have hd := d.utf8Size_pos
  simp only [List.take_succ_cons, List.take_zero, Text.byteLength]
  omega

/-- The four digits of a unit are read back. -/
theorem quad_hexQuad {n : Nat} (h : n < 65536) (rest : List Char) :
    quad (Text.hexQuad n ++ rest) = .ok (n, rest) := by
  have hlen := four_le_byteLength (n / 4096 % 16).digitChar (n / 256 % 16).digitChar
    (n / 16 % 16).digitChar (n % 16).digitChar rest
  unfold quad Text.hexQuad
  simp only [List.cons_append, List.nil_append, Text.readQuad_hexQuad h]
  rw [if_neg (Nat.not_lt.mpr hlen)]

/-- A character that stands for itself is read as itself. -/
theorem piece_raw {c : Char} (hq : c ≠ '"') (hb : c ≠ '\\') (hc : 32 ≤ c.toNat)
    (rest : List Char) : piece (c :: rest) = .ok (some (.char c), rest) := by
  unfold piece
  split
  · next h => cases h
  · next h => injection h with h _; exact absurd h hq
  · next h => injection h with h _; exact absurd h hb
  · next h =>
    injection h with h1 h2
    subst h1 h2
    rw [if_neg (Nat.not_lt.mpr hc)]

/-- An escaped unit below the surrogates is read as its character. -/
theorem storedChar_unit {n : Nat} (h : n < 0xD800) (rest : List Char) :
    storedChar ('\\' :: 'u' :: (Text.hexQuad n ++ rest)) = .ok (some (Char.ofNat n), rest) := by
  have hquad := quad_hexQuad (n := n) (by omega) rest
  have h1 : ¬(0xDC00 ≤ n ∧ n < 0xE000) := by omega
  have h2 : ¬(0xD800 ≤ n ∧ n < 0xDC00) := by omega
  simp only [storedChar, piece, escape, if_true, hquad, bind, Except.bind, pure, Except.pure]
  rw [if_neg h1, if_neg h2]

/-- A character is read back from what is written for it. -/
theorem storedChar_escapeChar (c : Char) (rest : List Char) :
    storedChar (escapeChar c ++ rest) = .ok (some c, rest) := by
  unfold escapeChar
  split
  · next h => subst h; rfl
  split
  · next h => subst h; rfl
  split
  · next h => subst h; rfl
  split
  · next h => subst h; rfl
  split
  · next h => subst h; rfl
  split
  · next h => subst h; rfl
  split
  · next h => subst h; rfl
  split
  · next h =>
    rw [List.cons_append, List.cons_append, storedChar_unit (by omega), Char.ofNat_toNat]
  · next hq hb _ _ _ _ _ hc =>
    rw [List.singleton_append, storedChar, piece_raw hq hb (Nat.not_lt.mp hc)]
    rfl

/-- What is written for a character is not empty. -/
theorem escapeChar_length_pos (c : Char) : 0 < (escapeChar c).length := by
  unfold escapeChar
  repeat' split
  all_goals simp only [List.length_cons]; omega

/-- A string has no more characters than what is written for it. -/
theorem length_le_escaped (chars : List Char) :
    chars.length ≤ (chars.flatMap escapeChar).length := by
  induction chars with
  | nil => exact Nat.le_refl _
  | cons c chars ih =>
    have hc := escapeChar_length_pos c
    rw [List.flatMap_cons, List.length_append, List.length_cons]
    omega

/-- The characters of a string are read back up to the closing quote. -/
theorem untilNone_escaped {fuel : Nat} (chars rest : List Char) (h : chars.length < fuel) :
    untilNone storedChar fuel (chars.flatMap escapeChar ++ '"' :: rest) = .ok (chars, rest) := by
  induction chars generalizing fuel with
  | nil =>
    cases fuel with
    | zero => omega
    | succ fuel => rfl
  | cons c chars ih =>
    cases fuel with
    | zero => omega
    | succ fuel =>
      rw [List.length_cons] at h
      have hfuel : chars.length < fuel := by omega
      have hrest := ih hfuel
      rw [List.flatMap_cons, List.append_assoc]
      unfold untilNone
      rw [storedChar_escapeChar]
      simp only [bind, Except.bind, hrest]
      rfl

/-- A string is read back from its quotes, whatever follows. -/
theorem storedString_quoted (s : String) (rest : List Char) :
    storedString (s.toList.flatMap escapeChar ++ '"' :: rest) = .ok (s, rest) := by
  have hlen := length_le_escaped s.toList
  have hfuel : s.toList.length < (s.toList.flatMap escapeChar ++ '"' :: rest).length + 1 := by
    rw [List.length_append]
    omega
  have hread := untilNone_escaped s.toList rest hfuel
  simp only [storedString, hread, bind, Except.bind, pure, Except.pure, String.ofList_toList]

end Settings.Json
