import Mathlib.Data.List.Forall2
import Settings.Datum.Stored
import Settings.Proofs.Json.Scalars
import Settings.Proofs.Json.Shape
import Settings.Schema.Read

/-!
# Readings that undo storing

What is stored for a typed value is decided without a schema, and what a stored value is
read as is decided without looking at how values are stored. A reading is exact for a class
of typed values when the two agree: it gives a value of the class exactly for the stored
form of that value. Exactness is put together as schemas are. Two forms of schema are left
out, and they have to be: numbers of 32 and 64 bits take integers too, and an option whose
content may be stored as null cannot tell a value that is there from one that is missing.
-/

namespace Settings.Schema

open Json (Value Members)

/-! ### Values of a schema -/

/-- The typed values of a schema. A map has its entries in the order of their keys. -/
inductive Has : Schema → Datum → Prop where
  /-- A truth value. -/
  | bool (b : Bool) : Has .bool (.bool b)
  /-- An integer of the kind. -/
  | integer {kind : IntegerKind} {n : Int} (h : kind.least ≤ n ∧ n < kind.limit) :
    Has (.integer kind) (.integer n)
  /-- One character. -/
  | char (c : Char) : Has .char (.char c)
  /-- A text. -/
  | text (s : String) : Has .text (.text s)
  /-- The only value. -/
  | unit : Has .unit .unit
  /-- A value that is missing. -/
  | absent (content : Schema) : Has (.option content) .absent
  /-- A value that is there. -/
  | present {content : Schema} {d : Datum} (h : Has content d) : Has (.option content) (.present d)
  /-- Values of one schema. -/
  | list {item : Schema} {ds : List Datum} (h : ∀ d ∈ ds, Has item d) :
    Has (.list item) (.sequence ds)
  /-- A value for each schema. -/
  | tuple {parts : List Schema} {ds : List Datum} (h : List.Forall₂ Has parts ds) :
    Has (.tuple parts) (.sequence ds)
  /-- As many values of one schema as wanted. -/
  | array {item : Schema} {ds : List Datum} (h : ∀ d ∈ ds, Has item d) :
    Has (.array ds.length item) (.sequence ds)
  /-- Values of one schema under texts. -/
  | map {content : Schema} {entries : List (String × Datum)} (hkeys : Members.Ascending entries)
    (h : ∀ e ∈ entries, Has content e.2) :
    Has (.map .text content) (.map (entries.map fun e => (.text e.1, e.2)))

/-- Schemas whose values can be told from their stored forms. -/
inductive Faithful : Schema → Prop where
  /-- Truth values. -/
  | bool : Faithful .bool
  /-- Integers of any kind. -/
  | integer (kind : IntegerKind) : Faithful (.integer kind)
  /-- Characters. -/
  | char : Faithful .char
  /-- Texts. -/
  | text : Faithful .text
  /-- The only value of a type. -/
  | unit : Faithful .unit
  /-- Values that may be missing and are not stored as null when they are there. -/
  | option {content : Schema} (h : Faithful content)
    (hnull : ∀ d, content.Has d → d.toValue ≠ .ok .null) : Faithful (.option content)
  /-- Lists. -/
  | list {item : Schema} (h : Faithful item) : Faithful (.list item)
  /-- Tuples. -/
  | tuple {parts : List Schema} (h : ∀ part ∈ parts, Faithful part) : Faithful (.tuple parts)
  /-- Arrays. -/
  | array (length : Nat) {item : Schema} (h : Faithful item) : Faithful (.array length item)
  /-- Maps under texts. -/
  | map {content : Schema} (h : Faithful content) : Faithful (.map .text content)

/-! ### Exact readings -/

/-- A reading gives a value of a class exactly for the stored form of that value. -/
structure Exact (reading : Reading Value) (P : Datum → Prop) : Prop where
  /-- What is read is of the class and is stored as what it was read from. -/
  sound : ∀ {w : Value} {x : Datum}, w.Ordered → reading w = .ok x → P x ∧ x.toValue = .ok w
  /-- The stored form of a value of the class is read as the value. -/
  complete : ∀ {w : Value} {x : Datum}, P x → x.toValue = .ok w → reading w = .ok x

/-- Truth values are read exactly. -/
theorem exact_bool : Exact readBool (Has .bool) := by
  constructor
  · intro w x _ h
    cases w <;> cases h
    exact ⟨.bool _, rfl⟩
  · intro w x hx h
    cases hx
    cases h
    rfl

/-- An integer is stored as itself. -/
theorem toValue_integer {n : Int} {w : Value} :
    (Datum.integer n).toValue = .ok w ↔
      ∃ h, w = .number (.integer n h) := by
  show Datum.ofInteger n = .ok w ↔ _
  unfold Datum.ofInteger Json.Number.ofInt?
  split
  · next n' hn =>
    split at hn <;> cases hn
    next hrange =>
    constructor
    · intro h
      cases h
      exact ⟨hrange, rfl⟩
    · rintro ⟨_, rfl⟩
      rfl
  · next hn =>
    split at hn
    · cases hn
    · next hrange =>
      constructor
      · intro h
        cases h
      · rintro ⟨h, _⟩
        exact absurd h hrange

/-- Integers of a kind are read exactly; a float is no integer. -/
theorem exact_integer (kind : IntegerKind) : Exact (readInteger kind) (Has (.integer kind)) := by
  constructor
  · intro w x _ h
    cases w with
    | number number =>
      cases number with
      | integer n hrange =>
        rw [readInteger] at h
        split at h <;> cases h
        next hkind => exact ⟨.integer hkind, toValue_integer.mpr ⟨hrange, rfl⟩⟩
      | float y => cases h
    | null | bool | string | array | object => cases h
  · intro w x hx h
    cases hx with
    | integer hkind =>
      obtain ⟨hrange, rfl⟩ := toValue_integer.mp h
      exact if_pos hkind

/-- Characters are read exactly; a text of another length is none. -/
theorem exact_char : Exact readChar (Has .char) := by
  constructor
  · intro w x _ h
    unfold readChar at h
    split at h
    · next s =>
      split at h <;> cases h
      next c hc =>
      refine ⟨.char c, ?_⟩
      rw [Datum.toValue, ← hc, String.ofList_toList]
    · cases h
  · intro w x hx h
    cases hx with
    | char c =>
      cases h
      unfold readChar
      dsimp only
      rw [String.toList_ofList]

/-- Texts are read exactly. -/
theorem exact_text : Exact readText (Has .text) := by
  constructor
  · intro w x _ h
    cases w <;> cases h
    exact ⟨.text _, rfl⟩
  · intro w x hx h
    cases hx
    cases h
    rfl

/-- The only value of a type is read exactly. -/
theorem exact_unit : Exact readUnit (Has .unit) := by
  constructor
  · intro w x _ h
    cases w <;> cases h
    exact ⟨.unit, rfl⟩
  · intro w x hx h
    cases hx
    cases h
    rfl

/-- A value other than null is read by the content of an option. -/
theorem readOption_of_ne (content : Reading Value) {w : Value} (hw : w ≠ .null) :
    readOption content w = (content w).map .present := by
  cases w <;> first | rfl | exact absurd rfl hw

/-- Optional values are read exactly when no content is stored as null. -/
theorem exact_option {reading : Reading Value} {content : Schema}
    (h : Exact reading (Has content)) (hnull : ∀ d, content.Has d → d.toValue ≠ .ok .null) :
    Exact (readOption reading) (Has (.option content)) := by
  constructor
  · intro w x ho hread
    by_cases hw : w = .null
    · subst hw
      cases hread
      exact ⟨.absent content, rfl⟩
    · rw [readOption_of_ne reading hw] at hread
      cases hd : reading w with
      | error reason => rw [hd] at hread; cases hread
      | ok d =>
        rw [hd] at hread
        cases hread
        obtain ⟨hhas, hvalue⟩ := h.sound ho hd
        exact ⟨.present hhas, by rw [Datum.toValue, hvalue]⟩
  · intro w x hx hvalue
    cases hx with
    | absent => cases hvalue; rfl
    | @present _ d hd =>
      rw [Datum.toValue] at hvalue
      have hw : w ≠ .null := fun hw => hnull d hd (hw ▸ hvalue)
      rw [readOption_of_ne reading hw, h.complete hd hvalue]
      rfl

end Settings.Schema
