import Mathlib.Data.List.Forall2
import Settings.Json.Reader
import Settings.Proofs.Json.Literal

/-!
# Rows of elements between brackets

The items of an array and the members of an object are read by loops of one
shape: an element, then commas with further elements, then a closing bracket.
What a row is read as, when it is refused and what its elements can be is stated
once for that shape. An element is known here by its text alone.
-/

namespace Settings.Json

variable {γ : Type}

/-- A character at which an element may start. -/
structure Starts (c : Char) : Prop where
  /-- It is no blank. -/
  not_blank : isBlank c = false
  /-- It does not close an array. -/
  not_bracket : c ≠ ']'
  /-- It does not close an object. -/
  not_brace : c ≠ '}'

/-- Blanks are skipped up to a character that is none. -/
theorem skipBlanks_cons {c : Char} (h : isBlank c = false) (rest : List Char) :
    skipBlanks (c :: rest) = c :: rest := by
  rw [skipBlanks, List.dropWhile_cons, h, if_neg Bool.false_ne_true]

/-- An element and the row after it, for which the fuel may depend on what is
left of the text. -/
def row (one : Reader γ) (more : Nat → Reader (List γ)) (fuel : List Char → Nat) :
    Reader (List γ) := fun text => do
  let (x, rest) ← one text
  let (xs, rest) ← more (fuel rest) rest
  return (x :: xs, rest)

/-- How the readers of a row proceed: `first` after the opening bracket and
`more` after an element. -/
structure Enclosed (close : Char) (one : Reader γ) (first : Reader (List γ))
    (more : Nat → Reader (List γ)) : Prop where
  /-- A row may be empty. -/
  first_close : ∀ rest, first (close :: rest) = .ok ([], rest)
  /-- The first element is read where the row opens. -/
  first_start : ∀ c rest, Starts c →
    first (c :: rest) = row one more List.length (c :: rest)
  /-- Nothing else is accepted where the row opens. -/
  first_ok : ∀ text xs rest, first text = .ok (xs, rest) →
    xs = [] ∨ ∃ next, row one more List.length next = .ok (xs, rest)
  /-- A row ends at its closing bracket. -/
  more_close : ∀ fuel rest, more (fuel + 1) (close :: rest) = .ok ([], rest)
  /-- A further element follows a comma. -/
  more_comma : ∀ fuel c rest, Starts c →
    more (fuel + 1) (',' :: c :: rest) = row one more (fun _ => fuel) (c :: rest)
  /-- Nothing else is accepted after an element. -/
  more_ok : ∀ fuel text xs rest, more (fuel + 1) text = .ok (xs, rest) →
    xs = [] ∨ ∃ next, row one more (fun _ => fuel) next = .ok (xs, rest)
  /-- Without fuel nothing is read. -/
  more_zero : ∀ text, ∃ failure, more 0 text = .error failure

/-- The items of an array are a row. -/
theorem enclosed_items (item : Reader γ) : Enclosed ']' item (items item) (moreItems item) where
  first_close _ := rfl
  first_start c rest hc := by
    unfold items
    rw [skipBlanks_cons hc.not_blank]
    split
    · next he => cases he
    · next he => injection he with he _; exact absurd he hc.not_bracket
    · rfl
  first_ok text xs rest h := by
    unfold items at h
    split at h
    · cases h
    · cases h; exact Or.inl rfl
    · exact Or.inr ⟨_, h⟩
  more_close _ _ := rfl
  more_comma fuel c rest hc := by
    unfold moreItems
    rw [skipBlanks_cons (by decide)]
    split
    · next he => cases he
    · next he => injection he with he _; exact absurd he (by decide)
    · next he =>
      injection he with _ he
      subst he
      rw [skipBlanks_cons hc.not_blank]
      split
      · next he => cases he
      · next he => injection he with he _; exact absurd he hc.not_bracket
      · rfl
    · next hno => exact absurd rfl (hno _)
  more_ok fuel text xs rest h := by
    unfold moreItems at h
    split at h
    · cases h
    · cases h; exact Or.inl rfl
    · split at h
      · cases h
      · cases h
      · exact Or.inr ⟨_, h⟩
    · cases h
  more_zero _ := ⟨_, rfl⟩

/-- The members of an object are a row. -/
theorem enclosed_members {τ : Type} (one : Reader (τ × γ)) :
    Enclosed '}' one (members one) (moreMembers one) where
  first_close _ := rfl
  first_start c rest hc := by
    unfold members
    rw [skipBlanks_cons hc.not_blank]
    split
    · next he => cases he
    · next he => injection he with he _; exact absurd he hc.not_brace
    · rfl
  first_ok text xs rest h := by
    unfold members at h
    split at h
    · cases h
    · cases h; exact Or.inl rfl
    · exact Or.inr ⟨_, h⟩
  more_close _ _ := rfl
  more_comma fuel c rest hc := by
    unfold moreMembers
    rw [skipBlanks_cons (by decide)]
    split
    · next he => cases he
    · next he => injection he with he _; exact absurd he (by decide)
    · next he =>
      injection he with _ he
      subst he
      rw [skipBlanks_cons hc.not_blank]
      split
      · next he => cases he
      · next he => injection he with he _; exact absurd he hc.not_brace
      · rfl
    · next hno => exact absurd rfl (hno _)
  more_ok fuel text xs rest h := by
    unfold moreMembers at h
    split at h
    · cases h
    · cases h; exact Or.inl rfl
    · split at h
      · cases h
      · cases h
      · exact Or.inr ⟨_, h⟩
    · cases h
  more_zero _ := ⟨_, rfl⟩

/-! ### Rows that are written -/

/-- A reader takes a text as an element, whatever ends it. -/
def Takes (one : Reader γ) (text : List Char) (x : γ) : Prop :=
  ∀ rest, EndsNumber rest → one (text ++ rest) = .ok (x, rest)

/-- A reader refuses a text, whatever ends it. -/
def Refuses (one : Reader γ) (text : List Char) : Prop :=
  ∀ rest, EndsNumber rest → ∃ failure, one (text ++ rest) = .error failure

/-- The texts after the first one in a row, up to the closing bracket. -/
def rowText (close : Char) : List (List Char) → List Char
  | [] => [close]
  | text :: texts => ',' :: (text ++ rowText close texts)

/-- A closing bracket. -/
structure Closes (close : Char) : Prop where
  /-- It cannot belong to a number. -/
  ends_number : close.isDigit = false ∧ close ≠ '.' ∧ close ≠ 'e' ∧ close ≠ 'E'

/-- What follows an element ends a number. -/
theorem endsNumber_rowText {close : Char} (hc : Closes close) (texts : List (List Char))
    (rest : List Char) : EndsNumber (rowText close texts ++ rest) := by
  cases texts with
  | nil => exact endsNumber_cons rest hc.ends_number
  | cons text texts => exact endsNumber_cons _ (by decide)

/-- A row has no more elements than characters. -/
theorem length_lt_rowText (close : Char) (texts : List (List Char)) (rest : List Char) :
    texts.length < (rowText close texts ++ rest).length := by
  induction texts with
  | nil => rw [rowText, List.length_append, List.length_singleton, List.length_nil]; omega
  | cons text texts ih =>
    rw [rowText, List.cons_append, List.append_assoc, List.length_cons, List.length_cons,
      List.length_append]
    omega

variable {close : Char} {one : Reader γ} {first : Reader (List γ)} {more : Nat → Reader (List γ)}

/-- The text of an element starts where an element may start. -/
def StartsText (text : List Char) : Prop :=
  ∃ c cs, text = c :: cs ∧ Starts c

/-- A further element is read after a comma. -/
theorem Enclosed.more_text_cons (he : Enclosed close one first more) {text : List Char}
    (hs : StartsText text) (fuel : Nat) (rest : List Char) :
    more (fuel + 1) (',' :: (text ++ rest)) = row one more (fun _ => fuel) (text ++ rest) := by
  obtain ⟨c, cs, rfl, hc⟩ := hs
  exact he.more_comma fuel c (cs ++ rest) hc

/-- Elements are read back, each from its own text. -/
theorem Enclosed.more_text (he : Enclosed close one first more) (hc : Closes close)
    {texts : List (List Char)} {xs : List γ} (h : List.Forall₂ (Takes one) texts xs)
    (hs : ∀ text ∈ texts, StartsText text) {fuel : Nat} (hf : texts.length < fuel)
    (rest : List Char) : more fuel (rowText close texts ++ rest) = .ok (xs, rest) := by
  induction h generalizing fuel with
  | nil =>
    cases fuel with
    | zero => omega
    | succ fuel => exact he.more_close fuel rest
  | @cons text x texts xs hx _ ih =>
    cases fuel with
    | zero => omega
    | succ fuel =>
      have hone := hx _ (endsNumber_rowText hc texts rest)
      rw [List.length_cons] at hf
      have hfuel : texts.length < fuel := by omega
      have hrest := ih (fun t ht => hs t (List.mem_cons_of_mem _ ht)) hfuel
      rw [rowText, List.cons_append, List.append_assoc,
        he.more_text_cons (hs text List.mem_cons_self), row, hone]
      simp only [bind, Except.bind, hrest]
      rfl

/-- A row is read back after its opening bracket. -/
theorem Enclosed.first_text (he : Enclosed close one first more) (hc : Closes close)
    {text : List Char} {texts : List (List Char)} {xs : List γ}
    (h : List.Forall₂ (Takes one) (text :: texts) xs)
    (hs : ∀ t ∈ text :: texts, StartsText t) (rest : List Char) :
    first (text ++ (rowText close texts ++ rest)) = .ok (xs, rest) := by
  cases h with
  | @cons _ x _ xs hx hxs =>
    obtain ⟨c, cs, ht, hstart⟩ := hs text List.mem_cons_self
    have hone := hx _ (endsNumber_rowText hc texts rest)
    have hrest := he.more_text hc hxs (fun t ht => hs t (List.mem_cons_of_mem _ ht))
      (length_lt_rowText close texts rest) rest
    have hfirst := he.first_start c (cs ++ (rowText close texts ++ rest)) hstart
    rw [← List.cons_append, ← ht] at hfirst
    rw [hfirst, row, hone]
    simp only [bind, Except.bind, hrest]
    rfl

/-! ### Rows that are refused -/

/-- A row is refused at an element that is refused, when every element before it
is taken. -/
theorem row_refuses (hc : Closes close) {text : List Char} {texts : List (List Char)}
    (h : (∃ x, Takes one text x) ∨ Refuses one text) (fuel : List Char → Nat) (rest : List Char)
    (htail : Refuses one text ∨
      ∀ fuel, ∃ failure, more fuel (rowText close texts ++ rest) = .error failure) :
    ∃ failure, row one more fuel (text ++ (rowText close texts ++ rest)) = .error failure := by
  have hends := endsNumber_rowText hc texts rest
  have hrefused (hr : Refuses one text) :
      ∃ failure, row one more fuel (text ++ (rowText close texts ++ rest)) = .error failure := by
    obtain ⟨failure, hf⟩ := hr _ hends
    exact ⟨failure, by rw [row, hf]; rfl⟩
  rcases h with ⟨x, hx⟩ | hr
  · rcases htail with hr | htail
    · exact hrefused hr
    · obtain ⟨failure, hf⟩ := htail (fuel (rowText close texts ++ rest))
      exact ⟨failure, by rw [row, hx _ hends]; simp only [bind, Except.bind, hf]⟩
  · exact hrefused hr

/-- Elements of which one is refused are refused. -/
theorem Enclosed.more_refuses (he : Enclosed close one first more) (hc : Closes close)
    {texts : List (List Char)} (h : ∀ text ∈ texts, (∃ x, Takes one text x) ∨ Refuses one text)
    (hex : ∃ text ∈ texts, Refuses one text) (hs : ∀ text ∈ texts, StartsText text)
    (rest : List Char) (fuel : Nat) :
    ∃ failure, more fuel (rowText close texts ++ rest) = .error failure := by
  induction texts generalizing fuel with
  | nil => obtain ⟨t, ht, -⟩ := hex; cases ht
  | cons text texts ih =>
    cases fuel with
    | zero => exact he.more_zero _
    | succ fuel =>
      rw [rowText, List.cons_append, List.append_assoc,
        he.more_text_cons (hs text List.mem_cons_self)]
      refine row_refuses hc (h text List.mem_cons_self) _ rest ?_
      obtain ⟨t, ht, hr⟩ := hex
      rcases List.mem_cons.mp ht with rfl | ht
      · exact Or.inl hr
      · exact Or.inr fun fuel => ih (fun t ht => h t (List.mem_cons_of_mem _ ht)) ⟨t, ht, hr⟩
          (fun t ht => hs t (List.mem_cons_of_mem _ ht)) fuel

/-- A row of which one element is refused is refused after its opening
bracket. -/
theorem Enclosed.first_refuses (he : Enclosed close one first more) (hc : Closes close)
    {text : List Char} {texts : List (List Char)}
    (h : ∀ t ∈ text :: texts, (∃ x, Takes one t x) ∨ Refuses one t)
    (hex : ∃ t ∈ text :: texts, Refuses one t) (hs : ∀ t ∈ text :: texts, StartsText t)
    (rest : List Char) :
    ∃ failure, first (text ++ (rowText close texts ++ rest)) = .error failure := by
  obtain ⟨c, cs, ht, hstart⟩ := hs text List.mem_cons_self
  have hfirst := he.first_start c (cs ++ (rowText close texts ++ rest)) hstart
  rw [← List.cons_append, ← ht] at hfirst
  rw [hfirst]
  refine row_refuses hc (h text List.mem_cons_self) _ rest ?_
  obtain ⟨t, ht, hr⟩ := hex
  rcases List.mem_cons.mp ht with rfl | ht
  · exact Or.inl hr
  · exact Or.inr fun fuel => he.more_refuses hc (fun t ht => h t (List.mem_cons_of_mem _ ht))
      ⟨t, ht, hr⟩ (fun t ht => hs t (List.mem_cons_of_mem _ ht)) rest fuel

/-! ### What the elements of a row can be -/

/-- An element and the row after it consist of elements that were read. -/
theorem row_mem {P : γ → Prop} (hone : ∀ text x rest, one text = .ok (x, rest) → P x)
    {fuel : List Char → Nat}
    (hmore : ∀ text xs rest, more (fuel text) text = .ok (xs, rest) → ∀ x ∈ xs, P x)
    {text : List Char} {xs : List γ} {rest : List Char}
    (h : row one more fuel text = .ok (xs, rest)) : ∀ x ∈ xs, P x := by
  unfold row at h
  cases hx : one text with
  | error failure => rw [hx] at h; cases h
  | ok first =>
    rw [hx] at h
    simp only [bind, Except.bind] at h
    cases hxs : more (fuel first.2) first.2 with
    | error failure => rw [hxs] at h; cases h
    | ok others =>
      rw [hxs] at h
      cases h
      intro x hmem
      rcases List.mem_cons.mp hmem with rfl | hmem
      · exact hone _ _ _ hx
      · exact hmore _ _ _ hxs x hmem

/-- A row consists of elements that were read. -/
theorem Enclosed.first_mem (he : Enclosed close one first more) {P : γ → Prop}
    (hone : ∀ text x rest, one text = .ok (x, rest) → P x) {text : List Char} {xs : List γ}
    {rest : List Char} (h : first text = .ok (xs, rest)) : ∀ x ∈ xs, P x := by
  have hmore (fuel : Nat) : ∀ text xs rest, more fuel text = .ok (xs, rest) → ∀ x ∈ xs, P x := by
    induction fuel with
    | zero =>
      intro text xs rest h
      obtain ⟨failure, hf⟩ := he.more_zero text
      rw [hf] at h
      cases h
    | succ fuel ih =>
      intro text xs rest h
      rcases he.more_ok fuel text xs rest h with rfl | ⟨next, hn⟩
      · exact fun x hx => absurd hx List.not_mem_nil
      · exact row_mem hone ih hn
  rcases he.first_ok text xs rest h with rfl | ⟨next, hn⟩
  · exact fun x hx => absurd hx List.not_mem_nil
  · exact row_mem hone (fun text => hmore text.length text) hn

end Settings.Json
