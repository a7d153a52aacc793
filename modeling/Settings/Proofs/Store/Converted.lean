import Settings.Proofs.Json.Unambiguous
import Settings.Proofs.Script.Obstacles
import Settings.Store.Scripted

/-!
# What a script value is stored as

A script value that is set is written as a text, which is then read. Writing may throw; the
text always keeps to the grammar, but the reader has limits of its own, on the depth of a
text, on escaped surrogates and on numbers. So a value is refused for one of two reasons, it
has no text and stands for dropping the setting, or it is stored as what its text denotes.
-/

namespace Settings

open Json (Spells Tree)

/-! ### Texts that the reader refuses -/

/-- Why a text that keeps to the grammar is refused when it is stored. -/
inductive Json.Tree.Unfit (tree : Tree) : Prop
  /-- More than 127 containers are nested in one another. -/
  | deep (h : 127 < tree.depth)
  /-- An escaped surrogate stands alone. -/
  | unpaired {ps : List Json.Piece} (hps : ps ∈ tree.strings) (h : ¬Json.Paired ps)
  /-- A number is out of range. -/
  | outOfRange {l : Json.Literal} (hl : l ∈ tree.literals) {unseen : Nat}
    (h : l.number = .error unseen)

/-- A tree that is not unfit nests no deeper than may be and denotes something. -/
theorem Json.not_unfit_iff {tree : Tree} :
    ¬tree.Unfit ↔ tree.depth ≤ 127 ∧ ∃ v, tree.Denotes v := by
  rw [Json.exists_denotes_iff]
  constructor
  · intro h
    have hdepth : tree.depth ≤ 127 := Nat.not_lt.mp fun hdeep => h (.deep hdeep)
    have hpaired : ∀ ps ∈ tree.strings, Json.Paired ps := by
      intro ps hps
      by_contra hlone
      exact h (.unpaired hps hlone)
    have hrange : ∀ l ∈ tree.literals, ∃ n, l.number = .ok n := by
      intro l hl
      cases hn : l.number with
      | ok n => exact ⟨n, rfl⟩
      | error unseen => exact absurd (Tree.Unfit.outOfRange hl hn) h
    exact ⟨hdepth, hpaired, hrange⟩
  · rintro ⟨hdepth, hpaired, hrange⟩ hunfit
    cases hunfit with
    | deep hdeep => omega
    | unpaired hps hlone => exact hlone (hpaired _ hps)
    | outOfRange hl hn =>
      obtain ⟨n, hok⟩ := hrange _ hl
      simp only [hn, reduceCtorEq] at hok

/-- A text is read as what its tree denotes, when it nests no deeper than may be. -/
theorem Json.Spells.read_ok_iff {text : List Char} {tree : Tree} (h : Spells text tree)
    {v : Json.Value} : Json.read text = .ok v ↔ tree.depth ≤ 127 ∧ tree.Denotes v := by
  rw [Json.read_ok_iff]
  constructor
  · rintro ⟨other, hother, hdepth, hdenotes⟩
    obtain rfl : other = tree := hother.unique h.whole
    exact ⟨hdepth, hdenotes⟩
  · rintro ⟨hdepth, hdenotes⟩
    exact ⟨tree, h.whole, hdepth, hdenotes⟩

/-- A text that keeps to the grammar is refused exactly when its tree is unfit. -/
theorem Json.Spells.read_error_iff {text : List Char} {tree : Tree} (h : Spells text tree) :
    (∃ failure, Json.read text = .error failure) ↔ tree.Unfit := by
  cases hread : Json.read text with
  | ok v =>
    have hfits : ¬tree.Unfit := by
      obtain ⟨hdepth, hdenotes⟩ := h.read_ok_iff.mp hread
      exact Json.not_unfit_iff.mpr ⟨hdepth, v, hdenotes⟩
    simp only [reduceCtorEq, exists_false, hfits]
  | error failure =>
    have hunfit : tree.Unfit := by
      by_contra hfits
      obtain ⟨hdepth, v, hdenotes⟩ := Json.not_unfit_iff.mp hfits
      have hok := h.read_ok_iff.mpr ⟨hdepth, hdenotes⟩
      simp only [hread, reduceCtorEq] at hok
    exact ⟨fun _ => hunfit, fun _ => ⟨failure, rfl⟩⟩

namespace Store

/-! ### The three outcomes -/

/-- A script value is refused, and this is thrown. -/
inductive RefusesToStore (value : Script.Value) : Script.Value → Prop
  /-- Writing the value throws, and what is met first is passed on as it is. -/
  | thrown {thrown : Script.Value} (h : (value.obstacles false).head? = some thrown) :
    RefusesToStore value thrown
  /-- The text of the value is unfit, and the failure of the reader is thrown as an error. -/
  | unfit {text : List Char} {tree : Tree} {failure : Json.Failure}
    (hwritten : Script.stringify value = .ok (some text)) (hspells : Spells text tree)
    (hunfit : tree.Unfit) (hread : Json.read text = .error failure) :
    RefusesToStore value (thrownError (failure.refusal text).message)

/-- A script value is stored as what its text denotes. -/
inductive StoresAs (value : Script.Value) (stored : Json.Value) : Prop
  /-- The text nests no deeper than may be. -/
  | mk {text : List Char} {tree : Tree} (hwritten : Script.stringify value = .ok (some text))
    (hspells : Spells text tree) (hdepth : tree.depth ≤ 127) (hdenotes : tree.Denotes stored)

/-- A value that has no text without throwing has no stored value. -/
theorem fromScript_of_textless {value : Script.Value}
    (h : Script.stringify value = .ok none) : fromScript value = .ok none := by
  simp only [fromScript, h, bind, Except.bind, pure, Except.pure]

/-- A value whose writing throws is not read. -/
theorem fromScript_of_thrown {value thrown : Script.Value}
    (h : Script.stringify value = .error thrown) : fromScript value = .error thrown := by
  simp only [fromScript, h, bind, Except.bind]

/-- A value that has a text is what is read of the text, or the failure is thrown. -/
theorem fromScript_of_text {value : Script.Value} {text : List Char}
    (h : Script.stringify value = .ok (some text)) :
    fromScript value =
      match Json.read text with
      | .ok stored => .ok (some stored)
      | .error failure => .error (thrownError (failure.refusal text).message) := by
  unfold fromScript
  rw [h]
  cases hread : Json.read text with
  | ok stored => simp only [bind, Except.bind, pure, Except.pure, hread]
  | error failure => simp only [bind, Except.bind, hread]

/-- A value that is refused has no stored value, and the conversion throws what is said. -/
theorem fromScript_of_refuses {value thrown : Script.Value} (h : RefusesToStore value thrown) :
    fromScript value = .error thrown := by
  cases h with
  | thrown hfirst =>
    have hwritten : Script.stringify value = .error thrown :=
      (Script.throwsFirst_textOf value false thrown).mpr hfirst
    exact fromScript_of_thrown hwritten
  | unfit hwritten hspells hunfit hread => rw [fromScript_of_text hwritten, hread]

/-- A value is converted to what it is stored as. -/
theorem fromScript_of_stores {value : Script.Value} {stored : Json.Value}
    (h : StoresAs value stored) : fromScript value = .ok (some stored) := by
  obtain ⟨hwritten, hspells, hdepth, hdenotes⟩ := h
  have hread := hspells.read_ok_iff.mpr ⟨hdepth, hdenotes⟩
  rw [fromScript_of_text hwritten, hread]

/-- Every value is refused, has no text or is stored. -/
theorem stored_cases (value : Script.Value) :
    (∃ thrown, RefusesToStore value thrown) ∨ Script.stringify value = .ok none ∨
      ∃ stored, StoresAs value stored := by
  cases hwritten : Script.stringify value with
  | error thrown =>
    have hfirst := (Script.throwsFirst_textOf value false thrown).mp hwritten
    exact .inl ⟨thrown, .thrown hfirst⟩
  | ok text? =>
    cases text? with
    | none => exact .inr (.inl rfl)
    | some text =>
      obtain ⟨tree, hspells⟩ := Script.exists_spells_of_textOf hwritten
      cases hread : Json.read text with
      | error failure =>
        have hunfit : tree.Unfit := hspells.read_error_iff.mp ⟨failure, hread⟩
        exact .inl ⟨_, .unfit hwritten hspells hunfit hread⟩
      | ok stored =>
        obtain ⟨hdepth, hdenotes⟩ := hspells.read_ok_iff.mp hread
        exact .inr (.inr ⟨stored, .mk hwritten hspells hdepth hdenotes⟩)

end Store

end Settings
