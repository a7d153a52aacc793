import Mathlib.Data.List.TakeWhile
import Settings.Json.Tree
import Settings.Proofs.Json.Grammar
import Settings.Proofs.Json.Quotation
import Settings.Script.Parse

/-!
# Numbers and strings are read by the grammar

The readers of literals and of strings accept exactly what the grammar spells.
Both directions are stated with the rest of the text: what is read stands in front
of it, and whatever the grammar spells is read off any rest that ends it. Strings
are compared piece by piece; what a reader makes of the pieces is a relation, which
is the only point in which the readers of strings differ.
-/

namespace Settings.Json

/-- A reading in two steps succeeds when both do. -/
theorem bind_ok {ε α β : Type} {first : Except ε α} {next : α → Except ε β} {y : β}
    (h : (first >>= next) = .ok y) : ∃ x, first = .ok x ∧ next x = .ok y := by
  cases first with
  | error e => cases h
  | ok x => exact ⟨x, rfl, h⟩

/-! ### Blanks -/

/-- A text is its leading blanks and what follows them. -/
theorem blank_append_skipBlanks (text : List Char) :
    ∃ before, Blank before ∧ text = before ++ skipBlanks text :=
  ⟨text.takeWhile isBlank, fun _ hc => List.mem_takeWhile_imp hc,
    (List.takeWhile_append_dropWhile).symm⟩

/-- Leading blanks are skipped. -/
theorem skipBlanks_append {before : List Char} (h : Blank before) (rest : List Char) :
    skipBlanks (before ++ rest) = skipBlanks rest :=
  List.dropWhile_append_of_pos h

/-- Of blanks nothing is left. -/
theorem skipBlanks_blank {text : List Char} (h : Blank text) : skipBlanks text = [] := by
  have hskip := skipBlanks_append h []
  rwa [List.append_nil] at hskip

/-- Blanks are skipped once. -/
theorem skipBlanks_skipBlanks (text : List Char) :
    skipBlanks (skipBlanks text) = skipBlanks text := by
  obtain ⟨before, hb, ht⟩ := blank_append_skipBlanks text
  have hskip := skipBlanks_append hb (skipBlanks text)
  rw [← ht] at hskip
  exact hskip.symm

/-- Blanks may be put in front of blanks. -/
theorem Blank.append {before after : List Char} (hb : Blank before) (ha : Blank after) :
    Blank (before ++ after) := by
  intro c hc
  rcases List.mem_append.mp hc with hc | hc
  · exact hb c hc
  · exact ha c hc

/-- Without blanks in front an element is one as well. -/
theorem Led.bare {γ : Type} {One : List Char → γ → Prop} {text : List Char} {x : γ}
    (h : One text x) : Led One text x :=
  @Led.mk γ One [] text x nofun h

/-- A key in quotes, a colon and a value stand without blanks between them. -/
theorem MemberText.bare {γ : Type} {One : List Char → γ → Prop} {key text : List Char}
    {pieces : List Piece} {x : γ} (hk : PiecesText key pieces) (hx : One text x) :
    MemberText One ('"' :: (key ++ ['"']) ++ ':' :: text) (pieces, x) := by
  have hmember : MemberText One ('"' :: (key ++ '"' :: ([] ++ ':' :: text))) (pieces, x) :=
    .mk hk nofun (.bare hx)
  simpa only [List.cons_append, List.append_assoc, List.nil_append] using hmember

/-- Blanks may be put in front of an element. -/
theorem Led.prepend {γ : Type} {One : List Char → γ → Prop} {before text : List Char} {x : γ}
    (hb : Blank before) (h : Led One text x) : Led One (before ++ text) x := by
  cases h with
  | @mk inner text _ hi hx =>
    rw [← List.append_assoc]
    exact .mk (hb.append hi) hx

/-- Blanks belong to no number. -/
theorem endsNumber_blank {blanks rest : List Char} (hb : Blank blanks) (hr : EndsNumber rest) :
    EndsNumber (blanks ++ rest) := by
  cases blanks with
  | nil => exact hr
  | cons c blanks =>
    have hc := hb c List.mem_cons_self
    refine endsNumber_cons _ ?_
    unfold isBlank at hc
    simp only [Bool.or_eq_true, decide_eq_true_eq] at hc
    rcases hc with ((rfl | rfl) | rfl) | rfl <;> decide

/-! ### Numbers -/

/-- Digits that were read. -/
theorem digits_ok {text ds rest : List Char} (h : digits text = .ok (ds, rest)) :
    text = ds ++ rest ∧ ds ≠ [] ∧ ∀ c ∈ ds, c.isDigit = true := by
  unfold digits at h
  split at h
  · cases h
  · next c more ht =>
    injection h with h
    injection h with hds hrest
    have happ := (List.takeWhile_append_dropWhile (p := Char.isDigit) (l := text)).symm
    rw [ht, hds, hrest] at happ
    refine ⟨happ, by rw [← hds]; exact List.cons_ne_nil c more, fun d hd => ?_⟩
    rw [← hds, ← ht] at hd
    exact List.mem_takeWhile_imp hd

/-- Digits before the point that were read. -/
theorem wholeDigits_ok {text ds rest : List Char} (h : wholeDigits text = .ok (ds, rest)) :
    text = ds ++ rest ∧ ds ≠ [] ∧ (∀ c ∈ ds, c.isDigit = true) ∧
      (ds.head? = some '0' → ds = ['0']) := by
  unfold wholeDigits at h
  split at h
  · split at h
    · cases h
    · cases h
      refine ⟨rfl, List.cons_ne_nil _ _, fun c hc => ?_, fun _ => rfl⟩
      rw [List.mem_singleton.mp hc]
      rfl
  · next hno =>
    obtain ⟨ht, hne, hd⟩ := digits_ok h
    refine ⟨ht, hne, hd, fun hzero => ?_⟩
    -- a zero with anything after it was taken by the first case
    cases ds with
    | nil => exact absurd rfl hne
    | cons d ds =>
      cases hzero
      cases hrest : ds ++ rest with
      | nil => rw [(List.append_eq_nil_iff.mp hrest).1]
      | cons c more => exact absurd (by rw [ht, List.cons_append, hrest]) (hno c more)

/-- Digits after a point that were read. -/
theorem fractionDigits_ok {text ds rest : List Char} (h : fractionDigits text = .ok (ds, rest)) :
    text = fractionText ds ++ rest ∧ ∀ c ∈ ds, c.isDigit = true := by
  unfold fractionDigits at h
  split at h
  · obtain ⟨ht, hne, hd⟩ := digits_ok h
    cases ds with
    | nil => exact absurd rfl hne
    | cons d ds => exact ⟨congrArg ('.' :: ·) ht, hd⟩
  · cases h
    exact ⟨rfl, fun c hc => absurd hc List.not_mem_nil⟩

/-- The sign of a written exponent that was read: a plus, a minus or none. -/
theorem powerSign_ok {text rest : List Char} {negative : Bool}
    (h : powerSign text = (negative, rest)) :
    (text = '+' :: rest ∧ negative = false) ∨ (text = '-' :: rest ∧ negative = true) ∨
      (text = rest ∧ negative = false) := by
  unfold powerSign at h
  split at h
  · cases h; exact Or.inl ⟨rfl, rfl⟩
  · cases h; exact Or.inr (Or.inl ⟨rfl, rfl⟩)
  · cases h; exact Or.inr (Or.inr ⟨rfl, rfl⟩)

/-- A written exponent that was read. -/
theorem writtenPower_ok {text rest : List Char} {power : Option Power}
    (h : writtenPower text = .ok (power, rest)) :
    ∃ front, text = front ++ rest ∧ PowerText front power ∧
      (∀ p ∈ power, p.digits ≠ []) ∧ ∀ p ∈ power, ∀ c ∈ p.digits, c.isDigit = true := by
  cases text with
  | nil => cases h; exact ⟨[], rfl, .none, nofun, nofun⟩
  | cons mark text =>
    rw [writtenPower] at h
    split at h
    · next hm =>
      rcases hsign : powerSign text with ⟨negative, unsigned⟩
      rw [hsign] at h
      obtain ⟨⟨ds, more⟩, hds, hx⟩ := bind_ok h
      cases hx
      obtain ⟨rfl, hne, hd⟩ := digits_ok hds
      have hsome : (∀ p ∈ some (Power.mk negative ds), p.digits ≠ []) ∧
          ∀ p ∈ some (Power.mk negative ds), ∀ c ∈ p.digits, c.isDigit = true := by
        constructor
        · intro p hp; cases hp; exact hne
        · intro p hp; cases hp; exact hd
      rcases powerSign_ok hsign with ⟨rfl, rfl⟩ | ⟨rfl, rfl⟩ | ⟨rfl, rfl⟩
      · exact ⟨mark :: '+' :: ds, rfl, .plus hm, hsome⟩
      · exact ⟨mark :: '-' :: ds, rfl, .minus hm, hsome⟩
      · exact ⟨mark :: ds, rfl, .bare hm, hsome⟩
    · cases h; exact ⟨[], rfl, .none, nofun, nofun⟩

/-- A sign that was read. -/
theorem literalSign_ok {text rest : List Char} {negative : Bool}
    (h : literalSign text = (negative, rest)) :
    text = (if negative then ['-'] else []) ++ rest := by
  unfold literalSign at h
  split at h
  · cases h; rfl
  · cases h; rfl

/-- A literal that was read is spelled in front of the rest. -/
theorem literal_ok {text rest : List Char} {l : Literal} (h : literal text = .ok (l, rest)) :
    ∃ front, text = front ++ rest ∧ NumberText front l := by
  rcases hsign : literalSign text with ⟨negative, unsigned⟩
  rw [literal, hsign] at h
  obtain ⟨⟨whole, rest₁⟩, hw, h⟩ := bind_ok h
  obtain ⟨⟨fraction, rest₂⟩, hf, h⟩ := bind_ok h
  obtain ⟨⟨power, rest₃⟩, hp, h⟩ := bind_ok h
  cases h
  obtain ⟨htw, hwne, hwd, hwh⟩ := wholeDigits_ok hw
  obtain ⟨htf, hfd⟩ := fractionDigits_ok hf
  obtain ⟨front, htp, hpt, hpne, hpd⟩ := writtenPower_ok hp
  refine ⟨_, ?_, NumberText.mk ⟨hwne, hwd, hwh, hfd, hpne, hpd⟩ hpt⟩
  rw [literalSign_ok hsign, htw, htf, htp]
  simp only [List.append_assoc]

/-- A spelled exponent is read off what ends it. -/
theorem PowerText.writtenPower {front rest : List Char} {power : Option Power}
    (h : PowerText front power) (hne : ∀ p ∈ power, p.digits ≠ [])
    (hd : ∀ p ∈ power, ∀ c ∈ p.digits, c.isDigit = true) (hr : EndsNumber rest) :
    Json.writtenPower (front ++ rest) = .ok (power, rest) := by
  cases h with
  | none => exact writtenPower_append hne hd hr
  | @bare mark ds hm =>
    have hds := digits_append (hne _ rfl) (hd _ rfl) hr.noDigit
    have hsign : powerSign (ds ++ rest) = (false, ds ++ rest) := by
      unfold powerSign
      split
      · next more he =>
        cases ds with
        | nil => exact absurd rfl (hne _ rfl)
        | cons d ds => cases he; exact absurd (hd _ rfl '+' List.mem_cons_self) (by decide)
      · next more he =>
        cases ds with
        | nil => exact absurd rfl (hne _ rfl)
        | cons d ds => cases he; exact absurd (hd _ rfl '-' List.mem_cons_self) (by decide)
      · rfl
    simp only [List.cons_append, Json.writtenPower, hm, if_true, hsign, hds]
    rfl
  | @plus mark ds hm =>
    have hds := digits_append (hne _ rfl) (hd _ rfl) hr.noDigit
    simp only [List.cons_append, Json.writtenPower, hm, if_true, powerSign, hds]
    rfl
  | @minus mark ds hm =>
    have hds := digits_append (hne _ rfl) (hd _ rfl) hr.noDigit
    simp only [List.cons_append, Json.writtenPower, hm, if_true, powerSign, hds]
    rfl

/-- A spelled exponent starts with its mark. -/
theorem PowerText.head {front : List Char} {power : Option Power} (h : PowerText front power) :
    front = [] ∨ ∃ mark more, front = mark :: more ∧ (mark = 'e' ∨ mark = 'E') := by
  cases h with
  | none => exact .inl rfl
  | bare hm => exact .inr ⟨_, _, rfl, hm⟩
  | plus hm => exact .inr ⟨_, _, rfl, hm⟩
  | minus hm => exact .inr ⟨_, _, rfl, hm⟩

/-- What follows the digits after the point is neither a digit nor a point. -/
theorem PowerText.ends {front rest : List Char} {power : Option Power} (h : PowerText front power)
    (hr : EndsNumber rest) : NoDigit (front ++ rest) ∧ (front ++ rest).head? ≠ some '.' := by
  rcases h.head with rfl | ⟨mark, more, rfl, hm⟩
  · exact ⟨hr.noDigit, fun he => (hr '.' he).2.1 rfl⟩
  · rcases hm with rfl | rfl
    · exact ⟨fun c hc => by cases hc; rfl, fun he => by cases he⟩
    · exact ⟨fun c hc => by cases hc; rfl, fun he => by cases he⟩

/-- A spelled number is read as its literal off what ends it. -/
theorem NumberText.literal {front rest : List Char} {l : Literal} (h : NumberText front l)
    (hr : EndsNumber rest) : Json.literal (front ++ rest) = .ok (l, rest) := by
  cases h with
  | @mk _ power hl hp =>
    obtain ⟨hpower, hpoint⟩ := hp.ends hr
    have hwhole : NoDigit (fractionText l.fraction ++ (power ++ rest)) := by
      cases l.fraction with
      | nil => exact hpower
      | cons d ds => exact fun c hc => by cases hc; rfl
    have hs := literalSign_append l.negative
      (head_ne_minus (fractionText l.fraction ++ (power ++ rest)) hl.whole_ne_nil hl.whole_digits)
    have hw := wholeDigits_append hl.whole_ne_nil hl.whole_digits hl.whole_head hwhole
    have hf := fractionDigits_append hl.fraction_digits hpower hpoint
    have hwp := hp.writtenPower hl.power_ne_nil hl.power_digits hr
    unfold Json.literal
    simp only [List.append_assoc, hs]
    rw [hw]
    simp only [bind, Except.bind, hf, hwp]
    rfl

/-- A spelled number starts with a minus sign or a digit. -/
theorem NumberText.head {front : List Char} {l : Literal} (h : NumberText front l) :
    ∃ c cs, front = c :: cs ∧ (c = '-' ∨ c.isDigit = true) := by
  cases h with
  | @mk _ power hl hp =>
    cases l.negative with
    | true => exact ⟨'-', _, rfl, Or.inl rfl⟩
    | false =>
      cases hw : l.whole with
      | nil => exact absurd hw hl.whole_ne_nil
      | cons c cs =>
        exact ⟨c, _, rfl, Or.inr (hl.whole_digits c (by rw [hw]; exact List.mem_cons_self))⟩

/-! ### The pieces of a string -/

/-- Four hexadecimal digits that were read. -/
theorem quad_ok {text rest : List Char} {n : Nat} (h : quad text = .ok (n, rest)) :
    ∃ a b c d, text = a :: b :: c :: d :: rest ∧ Text.readQuad? a b c d = some n := by
  unfold quad at h
  split at h
  · cases h
  · split at h
    · split at h
      · next hn => cases h; exact ⟨_, _, _, _, rfl, hn⟩
      · cases h
    · cases h

/-- Four hexadecimal digits are read. -/
theorem quad_digits {a b c d : Char} {n : Nat} (hn : Text.readQuad? a b c d = some n)
    (rest : List Char) : quad (a :: b :: c :: d :: rest) = .ok (n, rest) := by
  unfold quad
  rw [if_neg (Nat.not_lt.mpr (four_le_byteLength a b c d rest))]
  simp only [hn]

/-- What was read after a backslash is a spelled piece. -/
theorem escape_ok {text rest : List Char} {p : Piece} (h : escape text = .ok (p, rest)) :
    ∃ front, text = front ++ rest ∧ PieceText ('\\' :: front) p := by
  cases text with
  | nil => cases h
  | cons mark text =>
    rw [escape] at h
    split at h
    · next hu =>
      obtain ⟨⟨n, more⟩, hq, hx⟩ := bind_ok h
      cases hx
      obtain ⟨a, b, c, d, rfl, hn⟩ := quad_ok hq
      exact ⟨['u', a, b, c, d], by rw [hu]; rfl, .unit hn⟩
    · split at h
      · next c hc => cases h; exact ⟨[mark], rfl, .short hc⟩
      · cases h

/-- A piece that was read is spelled in front of the rest. -/
theorem piece_ok {text rest : List Char} {p : Piece} (h : piece text = .ok (some p, rest)) :
    ∃ front, text = front ++ rest ∧ PieceText front p := by
  unfold piece at h
  split at h
  · cases h
  · cases h
  · obtain ⟨⟨q, more⟩, he, hx⟩ := bind_ok h
    cases hx
    obtain ⟨front, rfl, hf⟩ := escape_ok he
    exact ⟨'\\' :: front, rfl, hf⟩
  · next c more hq hb =>
    split at h
    · cases h
    · next hc =>
      cases h
      exact ⟨[c], rfl, .raw (fun he => hq (by rw [he])) (fun he => hb (by rw [he]))
        (Nat.not_lt.mp hc)⟩

/-- Where no piece is read there is the closing quote. -/
theorem piece_ok_none {text rest : List Char} (h : piece text = .ok (none, rest)) :
    text = '"' :: rest := by
  unfold piece at h
  split at h
  · cases h
  · cases h; rfl
  · obtain ⟨⟨q, more⟩, -, hx⟩ := bind_ok h
    cases hx
  · split at h
    · cases h
    · cases h

/-- The character of a short escape is not the mark of four digits. -/
theorem ne_u_of_shortEscape {mark c : Char} (h : shortEscape? mark = some c) : mark ≠ 'u' := by
  rintro rfl
  have hu : shortEscape? 'u' = none := by decide
  rw [hu] at h
  cases h

/-- A spelled piece is read, whatever follows. -/
theorem PieceText.piece {front : List Char} {p : Piece} (h : PieceText front p)
    (rest : List Char) : Json.piece (front ++ rest) = .ok (some p, rest) := by
  cases h with
  | raw hq hb hc => exact piece_raw hq hb hc rest
  | @short mark c hc =>
    have hu := ne_u_of_shortEscape hc
    simp only [List.cons_append, List.nil_append, Json.piece, escape, hu, if_false, hc]
    rfl
  | @unit a b c d n hn =>
    have hquad := quad_digits hn rest
    simp only [List.cons_append, List.nil_append, Json.piece, escape, if_true, hquad]
    rfl

/-- A piece takes at least one character. -/
theorem PieceText.length_pos {front : List Char} {p : Piece} (h : PieceText front p) :
    0 < front.length := by
  cases h <;> exact Nat.succ_pos _

/-- There are no more pieces than characters. -/
theorem PiecesText.length_le {body : List Char} {ps : List Piece} (h : PiecesText body ps) :
    ps.length ≤ body.length := by
  induction h with
  | nil => exact Nat.le_refl _
  | cons hp _ ih =>
    have hpos := hp.length_pos
    rw [List.length_append, List.length_cons]
    omega

/-- Pieces that were read are spelled in front of the closing quote. -/
theorem untilNone_piece_ok {fuel : Nat} {text rest : List Char} {ps : List Piece}
    (h : untilNone piece fuel text = .ok (ps, rest)) :
    ∃ body, text = body ++ '"' :: rest ∧ PiecesText body ps := by
  induction fuel generalizing text ps with
  | zero => cases h
  | succ fuel ih =>
    unfold untilNone at h
    obtain ⟨⟨p, more⟩, hp, h⟩ := bind_ok h
    cases p with
    | none => cases h; exact ⟨[], piece_ok_none hp, .nil⟩
    | some p =>
      obtain ⟨⟨ps', more'⟩, hps, h⟩ := bind_ok h
      cases h
      obtain ⟨front, rfl, hfront⟩ := piece_ok hp
      obtain ⟨body, rfl, hbody⟩ := ih hps
      exact ⟨front ++ body, (List.append_assoc _ _ _).symm, .cons hfront hbody⟩

/-- Spelled pieces are read up to the closing quote. -/
theorem PiecesText.untilNone {body : List Char} {ps : List Piece} (h : PiecesText body ps)
    {fuel : Nat} (hf : ps.length < fuel) (rest : List Char) :
    Json.untilNone Json.piece fuel (body ++ '"' :: rest) = .ok (ps, rest) := by
  induction h generalizing fuel with
  | nil =>
    cases fuel with
    | zero => omega
    | succ fuel => rfl
  | @cons front body p ps hp _ ih =>
    cases fuel with
    | zero => omega
    | succ fuel =>
      rw [List.length_cons] at hf
      have hfuel : ps.length < fuel := by omega
      have hrest := ih hfuel
      rw [List.append_assoc]
      unfold Json.untilNone
      rw [hp.piece]
      simp only [bind, Except.bind, hrest]
      rfl

/-! ### What readers make of pieces -/

/-- A reader of strings takes what the grammar spells, up to the closing quote, and
makes of its pieces what a relation says. -/
def ReadsPieces {τ : Type} (string : Reader τ) (key : List Piece → τ → Prop) : Prop :=
  ∀ text s rest, string text = .ok (s, rest) ↔
    ∃ body ps, text = body ++ '"' :: rest ∧ PiecesText body ps ∧ key ps s

/-- The reader of pieces hands them over as they are. -/
theorem readsPieces_treeTarget : ReadsPieces treeTarget.string fun ps qs => qs = ps := by
  intro text qs rest
  constructor
  · intro h
    obtain ⟨body, ht, hb⟩ := untilNone_piece_ok h
    exact ⟨body, qs, ht, hb, rfl⟩
  · rintro ⟨body, ps, rfl, hb, rfl⟩
    have hlen := hb.length_le
    exact hb.untilNone (by rw [List.length_append]; omega) rest

/-- A script takes the units of the pieces. -/
theorem readsPieces_unitString :
    ReadsPieces Script.unitString fun ps units => units = ps.flatMap Script.pieceUnits := by
  intro text units rest
  constructor
  · intro h
    obtain ⟨⟨ps, more⟩, hps, hx⟩ := bind_ok h
    cases hx
    obtain ⟨body, ht, hb⟩ := untilNone_piece_ok hps
    exact ⟨body, ps, ht, hb, rfl⟩
  · rintro ⟨body, ps, rfl, hb, rfl⟩
    have hlen := hb.length_le
    have hfuel : ps.length < (body ++ '"' :: rest).length + 1 := by
      rw [List.length_append]
      omega
    have hread := hb.untilNone hfuel rest
    simp only [Script.unitString, hread, bind, Except.bind]
    rfl

end Settings.Json
