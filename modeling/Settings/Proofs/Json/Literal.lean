import Settings.Json.Literal
import Settings.Proofs.Decimal.Digits

/-!
# Literals are read back from their text

A literal that keeps to the grammar is written part by part, and the scanner
takes exactly these parts from the front of a text, as long as what follows
cannot belong to a number. The statement is about any continuation, so that it
serves numbers inside containers and numbers on their own alike.
-/

namespace Settings.Json

/-- The text of a written exponent; its sign is always written. -/
def Power.text (power : Power) : List Char :=
  'e' :: (if power.negative then '-' else '+') :: power.digits

/-- The text of the digits after the point; without digits there is no point. -/
def fractionText : List Char → List Char
  | [] => []
  | c :: rest => '.' :: c :: rest

/-- The text of a written exponent, if there is one. -/
def powerText : Option Power → List Char
  | none => []
  | some power => power.text

/-- The text of a literal. -/
def Literal.text (literal : Literal) : List Char :=
  (if literal.negative then ['-'] else []) ++
    (literal.whole ++ (fractionText literal.fraction ++ powerText literal.power))

/-- A literal that keeps to the grammar. -/
structure Literal.Proper (literal : Literal) : Prop where
  /-- There is a digit before the point. -/
  whole_ne_nil : literal.whole ≠ []
  /-- Before the point there are only digits. -/
  whole_digits : ∀ c ∈ literal.whole, c.isDigit = true
  /-- A zero in front stands alone. -/
  whole_head : literal.whole.head? = some '0' → literal.whole = ['0']
  /-- After the point there are only digits. -/
  fraction_digits : ∀ c ∈ literal.fraction, c.isDigit = true
  /-- A written exponent has a digit. -/
  power_ne_nil : ∀ p ∈ literal.power, p.digits ≠ []
  /-- A written exponent has only digits. -/
  power_digits : ∀ p ∈ literal.power, ∀ c ∈ p.digits, c.isDigit = true

/-- No digit stands at the front of a text. -/
def NoDigit (rest : List Char) : Prop :=
  ∀ c ∈ rest.head?, c.isDigit = false

/-- Nothing that could belong to a number stands at the front of a text. -/
def EndsNumber (rest : List Char) : Prop :=
  ∀ c ∈ rest.head?, c.isDigit = false ∧ c ≠ '.' ∧ c ≠ 'e' ∧ c ≠ 'E'

/-- The end of a text ends a number. -/
theorem endsNumber_nil : EndsNumber [] := by
  intro c hc
  cases hc

/-- A character outside numbers ends one. -/
theorem endsNumber_cons {c : Char} (rest : List Char)
    (h : c.isDigit = false ∧ c ≠ '.' ∧ c ≠ 'e' ∧ c ≠ 'E') : EndsNumber (c :: rest) := by
  intro d hd
  cases hd
  exact h

/-- What ends a number is no digit. -/
theorem EndsNumber.noDigit {rest : List Char} (h : EndsNumber rest) : NoDigit rest :=
  fun c hc => (h c hc).1

/-- A run of digits is taken whole. -/
theorem span_digits {ds rest : List Char} (hd : ∀ c ∈ ds, c.isDigit = true) (hr : NoDigit rest) :
    (ds ++ rest).takeWhile Char.isDigit = ds ∧ (ds ++ rest).dropWhile Char.isDigit = rest := by
  induction ds with
  | nil =>
    cases rest with
    | nil => exact ⟨rfl, rfl⟩
    | cons c rest =>
      have hc := hr c rfl
      simp only [List.nil_append, List.takeWhile_cons, List.dropWhile_cons, hc, Bool.false_eq_true,
        if_false, and_self]
  | cons c ds ih =>
    have hc := hd c List.mem_cons_self
    obtain ⟨ht, hdr⟩ := ih fun x hx => hd x (List.mem_cons_of_mem _ hx)
    simp only [List.cons_append, List.takeWhile_cons, List.dropWhile_cons, hc, if_true, ht, hdr,
      and_self]

/-- Digits are read back. -/
theorem digits_append {ds rest : List Char} (hne : ds ≠ []) (hd : ∀ c ∈ ds, c.isDigit = true)
    (hr : NoDigit rest) : digits (ds ++ rest) = .ok (ds, rest) := by
  obtain ⟨ht, hdr⟩ := span_digits hd hr
  cases ds with
  | nil => exact absurd rfl hne
  | cons c ds => simp only [digits, ht, hdr]

/-- The digits before the point are read back. -/
theorem wholeDigits_append {ds rest : List Char} (hne : ds ≠ [])
    (hd : ∀ c ∈ ds, c.isDigit = true) (hh : ds.head? = some '0' → ds = ['0'])
    (hr : NoDigit rest) : wholeDigits (ds ++ rest) = .ok (ds, rest) := by
  unfold wholeDigits
  split
  · next c more he =>
    -- the text starts with a zero, so the zero is all that is written
    have h0 : ds = ['0'] := by
      cases ds with
      | nil => exact absurd rfl hne
      | cons d ds =>
        injection he with hd0 _
        exact hh (congrArg some hd0)
    subst h0
    cases he
    have hc := hr c rfl
    rw [hc]
    rfl
  · exact digits_append hne hd hr

/-- The digits after the point are read back, and without digits there is no
point. -/
theorem fractionDigits_append {ds rest : List Char} (hd : ∀ c ∈ ds, c.isDigit = true)
    (hr : NoDigit rest) (hp : rest.head? ≠ some '.') :
    fractionDigits (fractionText ds ++ rest) = .ok (ds, rest) := by
  cases ds with
  | nil =>
    rw [fractionText, List.nil_append]
    unfold fractionDigits
    split
    · exact absurd rfl hp
    · rfl
  | cons c ds => exact digits_append (List.cons_ne_nil c ds) hd hr

/-- A written exponent is read back. -/
theorem writtenPower_append {power : Option Power} {rest : List Char}
    (hne : ∀ p ∈ power, p.digits ≠ []) (hd : ∀ p ∈ power, ∀ c ∈ p.digits, c.isDigit = true)
    (hr : EndsNumber rest) :
    writtenPower (powerText power ++ rest) = .ok (power, rest) := by
  cases power with
  | none =>
    cases rest with
    | nil => rfl
    | cons c rest =>
      obtain ⟨_, _, h1, h2⟩ := hr c rfl
      simp only [powerText, List.nil_append, writtenPower, h1, h2, or_self, if_false]
  | some p =>
    have hds := digits_append (hne p rfl) (hd p rfl) hr.noDigit
    obtain ⟨negative, ds⟩ := p
    cases negative <;>
      simp only [powerText, Power.text, List.cons_append, writtenPower, powerSign, hds, true_or,
        if_true, Bool.false_eq_true, if_false] <;>
      rfl

/-- What follows the digits before the point is no digit. -/
theorem noDigit_after_whole (literal : Literal) {rest : List Char} (hr : EndsNumber rest) :
    NoDigit (fractionText literal.fraction ++ (powerText literal.power ++ rest)) := by
  intro c hc
  cases hf : literal.fraction with
  | cons d ds => rw [hf] at hc; cases hc; rfl
  | nil =>
    rw [hf] at hc
    cases hp : literal.power with
    | some p => rw [hp] at hc; cases hc; rfl
    | none => rw [hp] at hc; exact (hr c hc).1

/-- What follows the digits after the point is neither a digit nor a point. -/
theorem after_fraction (literal : Literal) {rest : List Char} (hr : EndsNumber rest) :
    NoDigit (powerText literal.power ++ rest) ∧
      (powerText literal.power ++ rest).head? ≠ some '.' := by
  cases hp : literal.power with
  | some p => exact ⟨fun c hc => by cases hc; rfl, fun h => by cases h⟩
  | none => exact ⟨hr.noDigit, fun h => (hr '.' h).2.1 rfl⟩

/-- The sign in front of digits is read back. -/
theorem literalSign_append (negative : Bool) {rest : List Char} (h : rest.head? ≠ some '-') :
    literalSign ((if negative then ['-'] else []) ++ rest) = (negative, rest) := by
  cases negative with
  | true => rfl
  | false =>
    simp only [Bool.false_eq_true, if_false, List.nil_append]
    unfold literalSign
    split
    · exact absurd rfl h
    · rfl

/-- Digits do not start with a minus sign. -/
theorem head_ne_minus {ds : List Char} (rest : List Char) (hne : ds ≠ [])
    (hd : ∀ c ∈ ds, c.isDigit = true) : (ds ++ rest).head? ≠ some '-' := by
  intro h
  cases ds with
  | nil => exact absurd rfl hne
  | cons c ds =>
    cases h
    exact absurd (hd '-' List.mem_cons_self) (by decide)

/-- A literal is read back from its text, whatever ends it. -/
theorem literal_text {l : Literal} (h : l.Proper) {rest : List Char} (hr : EndsNumber rest) :
    literal (l.text ++ rest) = .ok (l, rest) := by
  obtain ⟨hfr, hpt⟩ := after_fraction l hr
  have hs := literalSign_append l.negative
    (head_ne_minus (fractionText l.fraction ++ (powerText l.power ++ rest)) h.whole_ne_nil
      h.whole_digits)
  have hw := wholeDigits_append h.whole_ne_nil h.whole_digits h.whole_head
    (noDigit_after_whole l hr)
  have hf := fractionDigits_append h.fraction_digits hfr hpt
  have hp := writtenPower_append h.power_ne_nil h.power_digits hr
  unfold literal Literal.text
  simp only [List.append_assoc, hs]
  rw [hw]
  simp only [bind, Except.bind, hf, hp]
  rfl

end Settings.Json
