import Settings.Proofs.Json.Accepted
import Settings.Proofs.Json.Brackets
import Settings.Proofs.Json.Meaning
import Settings.Proofs.Json.Reread

/-!
# What is read is what the grammar spells

A reading succeeds exactly on the texts that spell a tree whose containers nest no
deeper than may be open and which has a meaning for the target, and it yields that
meaning. Soundness and completeness go together through one step, a value whose
items are read by a reader that is already known to follow the grammar one level
less deep; the induction is on the number of levels.
-/

namespace Settings.Json

variable {τ α : Type}

/-- A text spells a tree that nests no deeper than so many containers and has a
meaning. -/
def Spelled (M : Meaning τ α) (levels : Nat) (text : List Char) (x : α) : Prop :=
  ∃ tree, Spells text tree ∧ tree.depth ≤ levels ∧ M.Of tree x

/-- A reader of values that follows the grammar down to so many levels. -/
structure Follows (M : Meaning τ α) (levels : Nat) (item : Reader α) : Prop where
  /-- Leading blanks are skipped. -/
  blank : ∀ before text, Blank before → item (before ++ text) = item text
  /-- What is read is spelled in front of the rest, perhaps after blanks. -/
  sound : ∀ text x rest, item text = .ok (x, rest) →
    ∃ front, text = front ++ rest ∧ Led (Spelled M levels) front x
  /-- What is spelled is read off what ends a number. -/
  complete : ∀ front x, Spelled M levels front x → Takes item front x

/-- The reader of what stands inside a container, if any may be opened. -/
inductive FollowsInside (M : Meaning τ α) : Nat → Option (Reader α) → Prop where
  /-- No container may be opened. -/
  | none : FollowsInside M 0 .none
  /-- What stands inside is one level less deep. -/
  | some {levels : Nat} {item : Reader α} (h : Follows M levels item) :
    FollowsInside M (levels + 1) (.some item)

/-! ### Where a value starts -/

/-- A spelled value starts a text. -/
theorem Spells.startsText {text : List Char} {tree : Tree} (h : Spells text tree) :
    StartsText text := by
  cases h with
  | null => exact ⟨_, _, rfl, starts_of_opening (by simp)⟩
  | yes => exact ⟨_, _, rfl, starts_of_opening (by simp)⟩
  | no => exact ⟨_, _, rfl, starts_of_opening (by simp)⟩
  | number hl =>
    obtain ⟨c, cs, rfl, hc⟩ := hl.head
    refine ⟨c, cs, rfl, ?_⟩
    rcases hc with rfl | hc
    · exact starts_of_opening (by simp)
    · obtain ⟨-, -, -, -, -, -, hs⟩ := ne_opening_of_isDigit hc
      exact hs
  | string => exact ⟨_, _, rfl, starts_of_opening (by simp)⟩
  | array => exact ⟨_, _, rfl, starts_of_opening (by simp)⟩
  | object => exact ⟨_, _, rfl, starts_of_opening (by simp)⟩

/-- A spelled member starts with a quote. -/
theorem MemberText.startsText {γ : Type} {One : List Char → γ → Prop} {text : List Char}
    {m : List Piece × γ} (h : MemberText One text m) : StartsText text := by
  cases h with
  | mk => exact ⟨_, _, rfl, starts_of_opening (by simp)⟩

/-! ### Members -/

/-- A text spells a member that nests no deeper and has a meaning. -/
def SpelledMember (M : Meaning τ α) (levels : Nat) (text : List Char) (m : τ × α) : Prop :=
  ∃ e, MemberText Spells text e ∧ e.2.depth ≤ levels ∧ EntryOf M.key M.Of e m

variable {M : Meaning τ α} {levels : Nat} {item : Reader α} {string : Reader τ}

/-- A member that was read is spelled in front of the rest. -/
theorem member_sound (hstring : ReadsPieces string M.key) (hitem : Follows M levels item)
    (text : List Char) (m : τ × α) (rest : List Char)
    (h : member string item text = .ok (m, rest)) :
    ∃ front, text = front ++ rest ∧ Led (SpelledMember M levels) front m := by
  unfold member at h
  split at h
  · next text =>
    obtain ⟨⟨k, next⟩, hk, hmore⟩ := bind_ok h
    obtain ⟨key, ps, rfl, hps, hkey⟩ := (hstring _ _ _).mp hk
    obtain ⟨before, hb, hn⟩ := blank_append_skipBlanks next
    dsimp only at hmore
    split at hmore
    · cases hmore
    · next tail hcolon =>
      obtain ⟨⟨x, more⟩, hx, he⟩ := bind_ok hmore
      cases he
      obtain ⟨front, rfl, hfront⟩ := hitem.sound _ _ _ hx
      cases hfront with
      | @mk inner text _ hi hs =>
        obtain ⟨tree, hspells, hdepth, hof⟩ := hs
        rw [hcolon] at hn
        have hm : MemberText Spells ('"' :: (key ++ '"' :: (before ++ ':' :: (inner ++ text))))
            (ps, tree) := .mk hps hb (.mk hi hspells)
        refine ⟨_, ?_, .bare ⟨_, hm, hdepth, .mk hkey hof⟩⟩
        rw [hn]
        simp only [List.cons_append, List.append_assoc]
    · cases hmore
  · cases h

/-- A spelled member is taken. -/
theorem member_complete (hstring : ReadsPieces string M.key) (hitem : Follows M levels item)
    (text : List Char) (m : τ × α) (h : SpelledMember M levels text m) :
    Takes (member string item) text m := by
  intro rest hr
  obtain ⟨e, hm, hdepth, he⟩ := h
  cases he with
  | @mk ps tree k x hkey hof =>
    cases hm with
    | @mk key before _ _ _ hps hb hx =>
      cases hx with
      | @mk inner text _ hi hs =>
        have hk := (hstring (key ++ '"' :: (before ++ ':' :: (inner ++ text) ++ rest)) k _).mpr
          ⟨key, ps, rfl, hps, hkey⟩
        have hread := hitem.complete text x ⟨tree, hs, hdepth, hof⟩ rest hr
        rw [← hitem.blank inner _ hi] at hread
        have hcolon : skipBlanks (before ++ ':' :: (inner ++ text) ++ rest) =
            ':' :: (inner ++ (text ++ rest)) := by
          rw [List.append_assoc, skipBlanks_append hb, List.cons_append, List.append_assoc,
            skipBlanks_cons (by decide)]
        rw [List.cons_append, List.append_assoc, List.cons_append, member, hk]
        simp only [bind, Except.bind, hcolon, hread]
        rfl

/-! ### Containers -/

/-- Items that were read stand in front of their closing bracket, and the array of
them is spelled one level deeper. -/
theorem items_sound (hitem : Follows M levels item) {text : List Char} {xs : List α}
    {rest : List Char} (h : items item text = .ok (xs, rest)) :
    ∃ body, text = body ++ ']' :: rest ∧
      Spelled M (levels + 1) ('[' :: (body ++ [']'])) (M.array xs) := by
  obtain ⟨body, rfl, hbody⟩ := (spaced_items item).first_sound hitem.sound h
  obtain ⟨trees, hspells, hall⟩ := inside_comp_iff.mp hbody
  refine ⟨body, rfl, .array trees, .array hspells, ?_, .array (hall.imp fun _ _ h => h.2)⟩
  rw [Tree.depth, Nat.add_le_add_iff_right, depthOfTrees_le_iff]
  intro t ht
  obtain ⟨x, hd, -⟩ := exists_of_forall₂ hall t ht
  exact hd

/-- Items that are spelled are read up to their closing bracket. -/
theorem items_complete (hitem : Follows M levels item) {body : List Char} {trees : List Tree}
    (hspells : Inside (Led Spells) body trees) (hdepth : (Tree.array trees).depth ≤ levels + 1)
    {xs : List α} (hof : List.Forall₂ M.Of trees xs) (rest : List Char) :
    items item (body ++ ']' :: rest) = .ok (xs, rest) := by
  rw [Tree.depth, Nat.add_le_add_iff_right, depthOfTrees_le_iff] at hdepth
  have hall : List.Forall₂ (fun t x => t.depth ≤ levels ∧ M.Of t x) trees xs :=
    (List.forall₂_and_left _ _).mpr ⟨hdepth, hof⟩
  refine (spaced_items item).first_complete closes_bracket ?_ hitem.complete
    (inside_comp_iff.mpr ⟨trees, hspells, hall⟩) rest
  rintro text x ⟨tree, hs, -⟩
  exact hs.startsText

/-- Members that were read stand in front of their closing brace, and every object of
them is spelled one level deeper. -/
theorem members_sound (hstring : ReadsPieces string M.key) (hitem : Follows M levels item)
    {text : List Char} {ms : List (τ × α)} {rest : List Char}
    (h : members (member string item) text = .ok (ms, rest)) {x : α} (hx : M.object ms x) :
    ∃ body, text = body ++ '}' :: rest ∧
      Spelled M (levels + 1) ('{' :: (body ++ ['}'])) x := by
  obtain ⟨body, rfl, hbody⟩ :=
    (spaced_members (member string item)).first_sound (member_sound hstring hitem) h
  obtain ⟨entries, hspells, hall⟩ := inside_comp_iff.mp hbody
  refine ⟨body, rfl, .object entries, .object hspells, ?_,
    .object (hall.imp fun _ _ h => h.2) hx⟩
  rw [Tree.depth, Nat.add_le_add_iff_right, depthOfEntries_le_iff]
  intro e he
  obtain ⟨m, hd, -⟩ := exists_of_forall₂ hall e he
  exact hd

/-- Members that are spelled are read up to their closing brace. -/
theorem members_complete (hstring : ReadsPieces string M.key) (hitem : Follows M levels item)
    {body : List Char} {entries : List (List Piece × Tree)}
    (hspells : Inside (Led (MemberText Spells)) body entries)
    (hdepth : (Tree.object entries).depth ≤ levels + 1) {ms : List (τ × α)}
    (hof : List.Forall₂ (EntryOf M.key M.Of) entries ms) (rest : List Char) :
    members (member string item) (body ++ '}' :: rest) = .ok (ms, rest) := by
  rw [Tree.depth, Nat.add_le_add_iff_right, depthOfEntries_le_iff] at hdepth
  have hall : List.Forall₂ (fun e m => e.2.depth ≤ levels ∧ EntryOf M.key M.Of e m) entries ms :=
    (List.forall₂_and_left _ _).mpr ⟨hdepth, hof⟩
  refine (spaced_members (member string item)).first_complete closes_brace ?_
    (member_complete hstring hitem) (inside_comp_iff.mpr ⟨entries, hspells, hall⟩) rest
  rintro text m ⟨e, hm, -⟩
  exact hm.startsText

/-! ### Values -/

/-- A known word that was read stands in front of the rest. -/
theorem word_sound {x y : α} {ws text rest : List Char} (h : word x ws text = .ok (y, rest)) :
    text = ws ++ rest := by
  induction ws generalizing text with
  | nil => cases h; rfl
  | cons w ws ih =>
    cases text with
    | nil => cases h
    | cons c text =>
      unfold word at h
      split at h
      · next hc => rw [hc, ih h, List.cons_append]
      · cases h

/-- A number that was read is spelled in front of the rest. -/
theorem number_sound {target : Target τ α} {text rest : List Char} {x : α}
    (h : number target text = .ok (x, rest)) :
    ∃ front l, text = front ++ rest ∧ NumberText front l ∧ target.number l = .ok x := by
  obtain ⟨⟨l, next⟩, hl, hvalue⟩ := bind_ok h
  obtain ⟨front, rfl, hfront⟩ := literal_ok hl
  dsimp only at hvalue
  split at hvalue
  · next y hy => cases hvalue; exact ⟨front, l, rfl, hfront, hy⟩
  · cases hvalue

/-- A spelled number is read off what ends it. -/
theorem number_complete {target : Target τ α} {front rest : List Char} {l : Literal} {x : α}
    (hfront : NumberText front l) (hx : target.number l = .ok x) (hr : EndsNumber rest) :
    number target (front ++ rest) = .ok (x, rest) := by
  have hl := hfront.literal hr
  simp only [number, hl, bind, Except.bind, hx]
  rfl

variable {target : Target τ α} {key : List Piece → τ → Prop}

/-- A scalar is spelled however few levels there are. -/
theorem spelled_scalar {text : List Char} {tree : Tree} {x : α} (hs : Spells text tree)
    (hd : tree.depth = 0) (hx : M.Of tree x) (levels : Nat) : Spelled M levels text x :=
  ⟨tree, hs, hd ▸ Nat.zero_le levels, hx⟩

/-- A value that was read is spelled in front of the rest. -/
theorem value_sound (hstring : ReadsPieces target.string key) {inner : Option (Reader α)}
    (hinner : FollowsInside (target.meaning key) levels inner) (text : List Char) (x : α)
    (rest : List Char) (h : value target inner text = .ok (x, rest)) :
    ∃ front, text = front ++ rest ∧ Led (Spelled (target.meaning key) levels) front x := by
  obtain ⟨before, hb, ht⟩ := blank_append_skipBlanks text
  suffices ∃ front, skipBlanks text = front ++ rest ∧
      Spelled (target.meaning key) levels front x by
    obtain ⟨front, hfront, hs⟩ := this
    exact ⟨before ++ front, by rw [List.append_assoc, ← hfront]; exact ht, .mk hb hs⟩
  unfold value at h
  split at h
  · cases h
  · next next he =>
    rw [he, word_sound h]
    cases word_ok h
    exact ⟨_, rfl, spelled_scalar .null rfl .null levels⟩
  · next next he =>
    rw [he, word_sound h]
    cases word_ok h
    exact ⟨_, rfl, spelled_scalar .yes rfl (.bool true) levels⟩
  · next next he =>
    rw [he, word_sound h]
    cases word_ok h
    exact ⟨_, rfl, spelled_scalar .no rfl (.bool false) levels⟩
  · next next he =>
    obtain ⟨⟨k, tail⟩, hk, hx⟩ := bind_ok h
    cases hx
    obtain ⟨body, ps, rfl, hps, hkey⟩ := (hstring _ _ _).mp hk
    rw [he]
    refine ⟨'"' :: (body ++ ['"']), ?_, spelled_scalar (.string hps) rfl (.string hkey) levels⟩
    simp only [List.cons_append, List.append_assoc, List.nil_append]
  · next next he =>
    cases hinner with
    | none => cases h
    | some hitem =>
      obtain ⟨⟨xs, tail⟩, hxs, hx⟩ := bind_ok h
      cases hx
      obtain ⟨body, rfl, hs⟩ := items_sound hitem hxs
      rw [he]
      exact ⟨_, by simp only [List.cons_append, List.append_assoc, List.nil_append], hs⟩
  · next next he =>
    cases hinner with
    | none => cases h
    | some hitem =>
      obtain ⟨⟨ms, tail⟩, hms, hx⟩ := bind_ok h
      cases hx
      obtain ⟨body, rfl, hs⟩ := members_sound (M := target.meaning key) hstring hitem hms rfl
      rw [he]
      exact ⟨_, by simp only [List.cons_append, List.append_assoc, List.nil_append], hs⟩
  · next c next _ _ _ _ _ _ he =>
    split at h
    · obtain ⟨front, l, hfront, hl, hx⟩ := number_sound h
      rw [he, hfront]
      exact ⟨front, rfl, spelled_scalar (.number hl) rfl (.number hx) levels⟩
    · cases h

/-- A spelled value is taken. -/
theorem value_complete (hstring : ReadsPieces target.string key) {inner : Option (Reader α)}
    (hinner : FollowsInside (target.meaning key) levels inner) (front : List Char) (x : α)
    (h : Spelled (target.meaning key) levels front x) : Takes (value target inner) front x := by
  intro rest hr
  obtain ⟨tree, hs, hdepth, hof⟩ := h
  cases hs with
  | null => cases hof; rfl
  | yes => cases hof; rfl
  | no => cases hof; rfl
  | number hl =>
    cases hof with
    | number hx =>
      have hread := number_complete hl hx hr
      obtain ⟨c, cs, rfl, hc⟩ := hl.head
      rw [List.cons_append, value_number target inner hc, ← List.cons_append, hread]
  | @string body ps hps =>
    cases hof with
    | @string _ k hkey =>
      have hk := (hstring (body ++ '"' :: rest) k rest).mpr ⟨body, ps, rfl, hps, hkey⟩
      rw [List.cons_append, List.append_assoc, List.singleton_append]
      unfold value
      rw [skipBlanks_cons (by decide)]
      simp only [hk, bind, Except.bind]
      rfl
  | @array body trees hi =>
    cases hof with
    | @array _ xs hxs =>
      cases hinner with
      | none => exact absurd hdepth (by rw [Tree.depth]; omega)
      | @some levels item hitem =>
        have hread := items_complete hitem hi hdepth hxs rest
        rw [List.cons_append, List.append_assoc, List.singleton_append]
        unfold value
        rw [skipBlanks_cons (by decide)]
        simp only [hread, bind, Except.bind]
        rfl
  | @object body entries he =>
    cases hof with
    | @object _ ms _ hms hx =>
      cases hinner with
      | none => exact absurd hdepth (by rw [Tree.depth]; omega)
      | @some levels item hitem =>
        have hread := members_complete (M := target.meaning key) hstring hitem he hdepth hms rest
        cases hx
        rw [List.cons_append, List.append_assoc, List.singleton_append]
        unfold value
        rw [skipBlanks_cons (by decide)]
        simp only [hread, bind, Except.bind]
        rfl

/-- The reader of a value follows the grammar when the reader of what is inside
containers does. -/
theorem follows_value (hstring : ReadsPieces target.string key) {inner : Option (Reader α)}
    (hinner : FollowsInside (target.meaning key) levels inner) :
    Follows (target.meaning key) levels (value target inner) where
  blank before text hb := by unfold value; rw [skipBlanks_append hb]
  sound := value_sound hstring hinner
  complete := value_complete hstring hinner

/-- However many containers may be open, the reader follows the grammar. -/
theorem follows_nested (hstring : ReadsPieces target.string key) (levels : Nat) :
    Follows (target.meaning key) levels (nested target levels) := by
  induction levels with
  | zero => exact follows_value hstring .none
  | succ levels ih => exact follows_value hstring (.some ih)

/-! ### Whole texts -/

/-- A whole text is read as something exactly when it spells a tree that nests no
deeper than may be open and that is this for the target. -/
theorem whole_ok_iff (hstring : ReadsPieces target.string key) {levels : Nat} {text : List Char}
    {x : α} :
    whole target levels text = .ok x ↔
      ∃ tree, SpellsText text tree ∧ tree.depth ≤ levels ∧ (target.meaning key).Of tree x := by
  have hnested := follows_nested hstring levels
  constructor
  · intro h
    obtain ⟨⟨y, rest⟩, hy, hend⟩ := bind_ok h
    obtain ⟨front, rfl, hfront⟩ := hnested.sound _ _ _ hy
    obtain ⟨after, ha, ht⟩ := blank_append_skipBlanks rest
    dsimp only at hend
    split at hend
    · next he =>
      cases hend
      cases hfront with
      | mk hb hs =>
        obtain ⟨tree, hspells, hdepth, hof⟩ := hs
        rw [he, List.append_nil] at ht
        rw [ht]
        exact ⟨tree, .mk (.mk hb hspells) ha, hdepth, hof⟩
    · cases hend
  · rintro ⟨tree, hspells, hdepth, hof⟩
    cases hspells with
    | mk hv ha =>
      cases hv with
      | @mk before text _ hb hs =>
        have hends := endsNumber_blank ha endsNumber_nil
        rw [List.append_nil] at hends
        have hread := hnested.complete text x ⟨tree, hs, hdepth, hof⟩ _ hends
        rw [List.append_assoc, whole, hnested.blank before _ hb, hread]
        simp only [bind, Except.bind, skipBlanks_blank ha]
        rfl

end Settings.Json
