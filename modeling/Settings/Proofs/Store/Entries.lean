import Settings.Proofs.Json.Keys
import Settings.Proofs.Store.Opening

/-!
# How many entries a slot has

The log is told how many settings a store was opened with. That is the number of different
keys at the top of the object in the slot, not of the members that are written there: a key
that is repeated counts once, however it is spelled. A slot without a text, or with the empty
one, has no entries.
-/

namespace Settings.Store

open Json (Document Piece Tree)

/-- How many entries the text of a slot has: as many as the object in it has different keys. -/
inductive EntryCount : Option String → Nat → Prop where
  /-- There is no text. -/
  | absent : EntryCount none 0
  /-- The text is empty. -/
  | empty : EntryCount (some "") 0
  /-- The text is an object whose members have these keys. -/
  | object {text : String} {entries : List (List Piece × Tree)} {keys : List String}
    (hspells : Json.SpellsText text.toList (.object entries))
    (hkeys : List.Forall₂ (fun entry key => Json.Decodes entry.1 key.toList) entries keys) :
    EntryCount (some text) keys.toFinset.card

/-- The keys of what entries denote are those that the entries spell. -/
theorem keys_of_entries {entries : List (List Piece × Tree)} {ms : List (String × Json.Value)}
    (h : List.Forall₂ (Json.EntryOf Json.denotation.key Json.denotation.Of) entries ms) :
    List.Forall₂ (fun entry key => Json.Decodes entry.1 key.toList) entries (ms.map Prod.fst) := by
  refine List.forall₂_map_right_iff.mpr (h.imp fun entry m hm => ?_)
  cases hm with
  | mk hkey _ => exact hkey

/-- A document that is loaded has as many settings as the text has entries. -/
theorem entryCount_of_load {slot : String} {raw : Option String} {document : Document}
    (h : load slot raw = .ok document) : EntryCount raw document.length := by
  cases raw with
  | none => cases h; exact .absent
  | some text =>
    by_cases hempty : text = ""
    · subst hempty
      cases h
      exact .empty
    · rw [load_some (by simpa using hempty)] at h
      cases hdecode : Json.decode text with
      | error reason => rw [hdecode] at h; cases h
      | ok v =>
        rw [hdecode] at h
        cases v with
        | object members =>
          cases h
          obtain ⟨tree, hspells, -, hdenotes⟩ := Json.decode_ok_iff.mp hdecode
          obtain ⟨entries, rfl⟩ := (denotes_object_iff hdenotes).mpr ⟨document, rfl⟩
          cases hdenotes with
          | object hms hv =>
            obtain ⟨members, hsame, hasc, hfind⟩ := hv
            cases hsame
            rw [Json.Members.length_eq_card hasc hfind]
            exact .object hspells (keys_of_entries hms)
        | null | bool | number | string | array => cases h

end Settings.Store
