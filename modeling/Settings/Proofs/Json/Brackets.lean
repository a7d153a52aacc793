import Settings.Proofs.Json.Row
import Settings.Proofs.Json.Scalars

/-!
# Rows of elements are read by the grammar

A row between brackets may have blanks around every element and every comma. The
loops that read items and members skip them, and otherwise proceed as the grammar
says: what they accept is a row of what they take as elements, and every row of
elements that are taken is accepted. Each direction is proved once for both loops.
-/

namespace Settings.Json

variable {γ : Type}

/-- Readers of a row that skip blanks in front of it and around its commas. -/
structure Spaced (close : Char) (one : Reader γ) (first : Reader (List γ))
    (more : Nat → Reader (List γ)) : Prop extends Enclosed close one first more where
  /-- Blanks after the opening bracket are skipped. -/
  first_blank : ∀ text, first text = first (skipBlanks text)
  /-- A row is empty or starts with an element. -/
  first_split : ∀ text xs rest, first text = .ok (xs, rest) →
    xs = [] ∧ skipBlanks text = close :: rest ∨
      row one more List.length (skipBlanks text) = .ok (xs, rest)
  /-- Blanks after an element are skipped. -/
  more_blank : ∀ fuel text, more (fuel + 1) text = more (fuel + 1) (skipBlanks text)
  /-- Blanks after a comma are skipped. -/
  more_comma_blank : ∀ fuel text,
    more (fuel + 1) (',' :: text) = more (fuel + 1) (',' :: skipBlanks text)
  /-- A row ends or goes on after a comma. -/
  more_split : ∀ fuel text xs rest, more (fuel + 1) text = .ok (xs, rest) →
    xs = [] ∧ skipBlanks text = close :: rest ∨
      ∃ next, skipBlanks text = ',' :: next ∧
        row one more (fun _ => fuel) (skipBlanks next) = .ok (xs, rest)

/-- The items of an array are a row. -/
theorem spaced_items (item : Reader γ) : Spaced ']' item (items item) (moreItems item) where
  toEnclosed := enclosed_items item
  first_blank text := by rw [items, items, skipBlanks_skipBlanks]
  first_split text xs rest h := by
    unfold items at h
    split at h
    · cases h
    · next he => cases h; exact Or.inl ⟨rfl, he⟩
    · exact Or.inr h
  more_blank fuel text := by rw [moreItems, moreItems, skipBlanks_skipBlanks]
  more_comma_blank fuel text := by
    rw [moreItems, moreItems, skipBlanks_cons (by decide), skipBlanks_cons (by decide)]
    simp only [skipBlanks_skipBlanks]
  more_split fuel text xs rest h := by
    unfold moreItems at h
    split at h
    · cases h
    · next he => cases h; exact Or.inl ⟨rfl, he⟩
    · next next he =>
      split at h
      · cases h
      · cases h
      · exact Or.inr ⟨next, he, h⟩
    · cases h

/-- The members of an object are a row. -/
theorem spaced_members {τ : Type} (one : Reader (τ × γ)) :
    Spaced '}' one (members one) (moreMembers one) where
  toEnclosed := enclosed_members one
  first_blank text := by rw [members, members, skipBlanks_skipBlanks]
  first_split text xs rest h := by
    unfold members at h
    split at h
    · cases h
    · next he => cases h; exact Or.inl ⟨rfl, he⟩
    · exact Or.inr h
  more_blank fuel text := by rw [moreMembers, moreMembers, skipBlanks_skipBlanks]
  more_comma_blank fuel text := by
    rw [moreMembers, moreMembers, skipBlanks_cons (by decide), skipBlanks_cons (by decide)]
    simp only [skipBlanks_skipBlanks]
  more_split fuel text xs rest h := by
    unfold moreMembers at h
    split at h
    · cases h
    · next he => cases h; exact Or.inl ⟨rfl, he⟩
    · next next he =>
      split at h
      · cases h
      · cases h
      · exact Or.inr ⟨next, he, h⟩
    · cases h

variable {close : Char} {one : Reader γ} {first : Reader (List γ)} {more : Nat → Reader (List γ)}
  {One : List Char → γ → Prop}

/-! ### What is accepted is a row -/

/-- An element and the row after it were read: the element is in front of what the
row was read from. -/
theorem row_ok {fuel : List Char → Nat} {text : List Char} {xs : List γ} {rest : List Char}
    (h : row one more fuel text = .ok (xs, rest)) :
    ∃ x ys next, one text = .ok (x, next) ∧ more (fuel next) next = .ok (ys, rest) ∧
      xs = x :: ys := by
  obtain ⟨⟨x, next⟩, hx, h⟩ := bind_ok h
  obtain ⟨⟨ys, last⟩, hys, h⟩ := bind_ok h
  cases h
  exact ⟨x, ys, next, hx, hys, rfl⟩

/-- What is accepted after an element is a closing bracket, or a comma and a row up to
one. -/
theorem Spaced.more_sound (hs : Spaced close one first more)
    (hone : ∀ text x rest, one text = .ok (x, rest) →
      ∃ front, text = front ++ rest ∧ Led One front x)
    {fuel : Nat} {text : List Char} {xs : List γ} {rest : List Char}
    (h : more fuel text = .ok (xs, rest)) :
    ∃ after, Blank after ∧ (xs = [] ∧ text = after ++ close :: rest ∨
      ∃ body last, text = after ++ ',' :: (body ++ (last ++ close :: rest)) ∧
        Row (Led One) body xs ∧ Blank last) := by
  induction fuel generalizing text xs with
  | zero =>
    obtain ⟨failure, hf⟩ := hs.more_zero text
    rw [hf] at h
    cases h
  | succ fuel ih =>
    obtain ⟨after, ha, ht⟩ := blank_append_skipBlanks text
    refine ⟨after, ha, ?_⟩
    rcases hs.more_split fuel text xs rest h with ⟨rfl, he⟩ | ⟨next, he, hrow⟩
    · exact Or.inl ⟨rfl, by rw [← he]; exact ht⟩
    · obtain ⟨x, ys, tail, hx, hys, rfl⟩ := row_ok hrow
      obtain ⟨front, hfront, hled⟩ := hone _ _ _ hx
      obtain ⟨before, hb, hn⟩ := blank_append_skipBlanks next
      have hled := hled.prepend hb
      rw [he, hn, hfront] at ht
      obtain ⟨mid, hm, ⟨rfl, rfl⟩ | ⟨body, last, rfl, hbody, hlast⟩⟩ := ih hys
      · refine Or.inr ⟨before ++ front, mid, ?_, .last hled, hm⟩
        rw [ht, List.append_assoc]
      · refine Or.inr ⟨_, last, ?_, .more hled hm hbody, hlast⟩
        rw [ht]
        simp only [List.append_assoc, List.cons_append]

/-- What is accepted after an opening bracket stands inside brackets. -/
theorem Spaced.first_sound (hs : Spaced close one first more)
    (hone : ∀ text x rest, one text = .ok (x, rest) →
      ∃ front, text = front ++ rest ∧ Led One front x)
    {text : List Char} {xs : List γ} {rest : List Char} (h : first text = .ok (xs, rest)) :
    ∃ body, text = body ++ close :: rest ∧ Inside (Led One) body xs := by
  obtain ⟨before, hb, ht⟩ := blank_append_skipBlanks text
  rcases hs.first_split text xs rest h with ⟨rfl, he⟩ | hrow
  · exact ⟨before, by rw [← he]; exact ht, .blank hb⟩
  · obtain ⟨x, ys, tail, hx, hys, rfl⟩ := row_ok hrow
    obtain ⟨front, hfront, hled⟩ := hone _ _ _ hx
    have hled := hled.prepend hb
    rw [hfront] at ht
    obtain ⟨mid, hm, ⟨rfl, rfl⟩ | ⟨body, last, rfl, hbody, hlast⟩⟩ := hs.more_sound hone hys
    · refine ⟨_, ?_, .row (.last hled) hm⟩
      rw [ht]
      simp only [List.append_assoc]
    · refine ⟨_, ?_, .row (.more hled hm hbody) hlast⟩
      rw [ht]
      simp only [List.append_assoc, List.cons_append]

/-! ### A row is accepted -/

/-- An element that is taken with blanks in front is read, and then the row after
it. -/
theorem row_led (hstart : ∀ text x, One text x → StartsText text)
    (hone : ∀ text x, One text x → Takes one text x) {text : List Char} {x : γ}
    (hx : Led One text x) (fuel : List Char → Nat) {tail : List Char} (ht : EndsNumber tail)
    {ys : List γ} {rest : List Char} (hys : more (fuel tail) tail = .ok (ys, rest)) :
    ∃ c cs, skipBlanks (text ++ tail) = c :: cs ∧ Starts c ∧
      row one more fuel (c :: cs) = .ok (x :: ys, rest) := by
  cases hx with
  | @mk before text _ hb hx =>
    obtain ⟨c, cs, rfl, hc⟩ := hstart text x hx
    have hread := hone _ x hx tail ht
    refine ⟨c, cs ++ tail, ?_, hc, ?_⟩
    · rw [List.append_assoc, skipBlanks_append hb, List.cons_append,
        skipBlanks_cons hc.not_blank]
    · rw [row, ← List.cons_append, hread]
      simp only [bind, Except.bind, hys]
      rfl

/-- A row has no more elements than characters. -/
theorem Row.length_le {body : List Char} {xs : List γ} (h : Row One body xs) :
    xs.length ≤ body.length + 1 := by
  induction h with
  | last _ => exact Nat.succ_le_succ (Nat.zero_le _)
  | more _ _ _ ih => simp only [List.length_append, List.length_cons]; omega

/-- A closing bracket ends a number after blanks. -/
theorem endsNumber_close (hc : Closes close) {blanks : List Char} (hb : Blank blanks)
    (rest : List Char) : EndsNumber (blanks ++ close :: rest) :=
  endsNumber_blank hb (endsNumber_cons rest hc.ends_number)

/-- A comma ends a number after blanks. -/
theorem endsNumber_comma {blanks : List Char} (hb : Blank blanks) (rest : List Char) :
    EndsNumber (blanks ++ ',' :: rest) :=
  endsNumber_blank hb (endsNumber_cons rest (by decide))

section Complete

variable (hs : Spaced close one first more) (hc : Closes close)
  (hstart : ∀ text x, One text x → StartsText text)
  (hone : ∀ text x, One text x → Takes one text x)

include hs

/-- Blanks after an element change nothing. -/
theorem Spaced.more_append (fuel : Nat) {blanks : List Char} (hb : Blank blanks)
    (text : List Char) : more (fuel + 1) (blanks ++ text) = more (fuel + 1) text := by
  rw [hs.more_blank fuel (blanks ++ text), skipBlanks_append hb, ← hs.more_blank]

include hstart hone

/-- An element after a comma is read, and then the row after it. -/
theorem Spaced.more_element {fuel : Nat} {before text : List Char} (hb : Blank before) {x : γ}
    (hx : Led One text x) {tail : List Char} (ht : EndsNumber tail) {ys : List γ}
    {rest : List Char} (hys : more fuel tail = .ok (ys, rest)) :
    more (fuel + 1) (before ++ ',' :: (text ++ tail)) = .ok (x :: ys, rest) := by
  obtain ⟨c, cs, hskip, hc, hrow⟩ := row_led hstart hone hx (fun _ => fuel) ht hys
  rw [hs.more_append fuel hb, hs.more_comma_blank, hskip, hs.more_comma fuel c cs hc, hrow]

/-- An element after an opening bracket is read, and then the row after it. -/
theorem Spaced.first_element {text : List Char} {x : γ} (hx : Led One text x) {tail : List Char}
    (ht : EndsNumber tail) {ys : List γ} {rest : List Char}
    (hys : more tail.length tail = .ok (ys, rest)) :
    first (text ++ tail) = .ok (x :: ys, rest) := by
  obtain ⟨c, cs, hskip, hc, hrow⟩ := row_led hstart hone hx List.length ht hys
  rw [hs.first_blank, hskip, hs.first_start c cs hc, hrow]

include hc

/-- A row that follows a comma is read. -/
theorem Spaced.more_complete {body : List Char} {xs : List γ} (h : Row (Led One) body xs)
    {before after : List Char} (hb : Blank before) (ha : Blank after) {fuel : Nat}
    (hf : xs.length < fuel) (rest : List Char) :
    more fuel (before ++ ',' :: (body ++ (after ++ close :: rest))) = .ok (xs, rest) := by
  induction h generalizing before fuel with
  | @last text x hx =>
    rw [List.length_singleton] at hf
    obtain ⟨fuel, rfl⟩ : ∃ n, fuel = n + 2 := ⟨fuel - 2, by omega⟩
    have hend : more (fuel + 1) (after ++ close :: rest) = .ok ([], rest) := by
      rw [hs.more_append fuel ha, hs.more_close]
    exact hs.more_element hstart hone hb hx (endsNumber_close hc ha rest) hend
  | @more text mid body x xs hx hm _ ih =>
    rw [List.length_cons] at hf
    obtain ⟨fuel, rfl⟩ : ∃ n, fuel = n + 1 := ⟨fuel - 1, by omega⟩
    have hfuel : xs.length < fuel := by omega
    have hnext := ih hm hfuel
    have hread := hs.more_element hstart hone hb hx (endsNumber_comma hm _) hnext
    simpa only [List.append_assoc, List.cons_append] using hread

/-- What stands inside brackets is read up to the closing one. -/
theorem Spaced.first_complete {body : List Char} {xs : List γ} (h : Inside (Led One) body xs)
    (rest : List Char) : first (body ++ close :: rest) = .ok (xs, rest) := by
  cases h with
  | blank hb =>
    have hclose := hs.first_close rest
    rw [hs.first_blank] at hclose ⊢
    rwa [skipBlanks_append hb]
  | @row text after _ hrow ha =>
    cases hrow with
    | @last _ x hx =>
      have hend : more (after ++ close :: rest).length (after ++ close :: rest) =
          .ok ([], rest) := by
        rw [List.length_append, List.length_cons, ← Nat.add_assoc, hs.more_append _ ha,
          hs.more_close]
      have hread := hs.first_element hstart hone hx (endsNumber_close hc ha rest) hend
      rwa [List.append_assoc]
    | @more text mid body x xs hx hm hrest =>
      have hlen := hrest.length_le
      have hfuel : xs.length < (mid ++ ',' :: (body ++ (after ++ close :: rest))).length := by
        simp only [List.length_append, List.length_cons]
        omega
      have hnext := hs.more_complete hc hstart hone hrest hm ha hfuel rest
      have hread := hs.first_element hstart hone hx (endsNumber_comma hm _) hnext
      simpa only [List.append_assoc, List.cons_append] using hread

end Complete

/-! ### Elements that are built from others -/

/-- A row of what is built from elements is built from a row of elements. -/
theorem row_comp {α β : Type} {S : List Char → α → Prop} {B : α → β → Prop} {body : List Char}
    {xs : List β} (h : Row (Led fun text x => ∃ t, S text t ∧ B t x) body xs) :
    ∃ ts, Row (Led S) body ts ∧ List.Forall₂ B ts xs := by
  induction h with
  | last hx =>
    obtain ⟨hb, t, hs, hbuilt⟩ := hx
    exact ⟨[t], .last (.mk hb hs), .cons hbuilt .nil⟩
  | more hx ha _ ih =>
    obtain ⟨hb, t, hs, hbuilt⟩ := hx
    obtain ⟨ts, hts, hall⟩ := ih
    exact ⟨t :: ts, .more (.mk hb hs) ha hts, .cons hbuilt hall⟩

/-- What is built from a row of elements is a row of what is built from them. -/
theorem Row.comp {α β : Type} {S : List Char → α → Prop} {B : α → β → Prop} {body : List Char}
    {ts : List α} (h : Row (Led S) body ts) {xs : List β} (hall : List.Forall₂ B ts xs) :
    Row (Led fun text x => ∃ t, S text t ∧ B t x) body xs := by
  induction h generalizing xs with
  | last hx =>
    obtain ⟨hb, hs⟩ := hx
    cases hall with
    | cons hbuilt hnil => cases hnil; exact .last (.mk hb ⟨_, hs, hbuilt⟩)
  | more hx ha _ ih =>
    obtain ⟨hb, hs⟩ := hx
    cases hall with
    | cons hbuilt hall => exact .more (.mk hb ⟨_, hs, hbuilt⟩) ha (ih hall)

/-- Inside brackets stands what is built from a row of elements. -/
theorem inside_comp_iff {α β : Type} {S : List Char → α → Prop} {B : α → β → Prop}
    {body : List Char} {xs : List β} :
    Inside (Led fun text x => ∃ t, S text t ∧ B t x) body xs ↔
      ∃ ts, Inside (Led S) body ts ∧ List.Forall₂ B ts xs := by
  constructor
  · intro h
    cases h with
    | blank ht => exact ⟨[], .blank ht, .nil⟩
    | row hrow ha =>
      obtain ⟨ts, hts, hall⟩ := row_comp hrow
      exact ⟨ts, .row hts ha, hall⟩
  · rintro ⟨ts, h, hall⟩
    cases h with
    | blank ht => cases hall; exact .blank ht
    | row hrow ha => exact .row (hrow.comp hall) ha

end Settings.Json
