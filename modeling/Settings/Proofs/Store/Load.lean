import Settings.Proofs.Json.Accepted
import Settings.Proofs.Json.Fidelity
import Settings.Store.Basic

/-!
# Loading what was stored

The text of a document is loaded when the document is nested no deeper than
stored text may be, its own braces counted, and then every value is what its own
text is read as. Which documents survive loading unchanged follows. Conversely
whatever is loaded is ordered, and its settings leave room for the braces around
them.
-/

namespace Settings.Store

open Json (Value Document Members)

/-- A document whose keys ascend and whose settings a reader may have yielded
with so many containers open. -/
structure Sound (levels : Nat) (document : Document) : Prop where
  /-- The keys ascend. -/
  ascending : Members.Ascending document
  /-- Every setting is ordered and nested no deeper. -/
  within : ∀ member ∈ document, member.2.Within levels

/-- A sound document is ordered as a value. -/
theorem Sound.ordered {levels : Nat} {document : Document} (h : Sound levels document) :
    (Value.object document).Ordered :=
  Json.ordered_object_iff.mpr ⟨h.ascending, fun m hm => (h.within m hm).ordered⟩

/-- A document of sound settings is nested one deeper. -/
theorem Sound.depth_le {levels : Nat} {document : Document} (h : Sound levels document) :
    (Value.object document).depth ≤ levels + 1 :=
  Json.depth_object_le_iff.mpr fun m hm => (h.within m hm).depth_le

/-- A document without settings is sound. -/
theorem sound_nil (levels : Nat) : Sound levels [] :=
  ⟨List.Pairwise.nil, fun _ hm => absurd hm List.not_mem_nil⟩

/-- A setting that may be yielded keeps a document sound. -/
theorem Sound.insert {levels : Nat} {document : Document} (h : Sound levels document)
    (key : String) {value : Value} (hv : value.Within levels) :
    Sound levels (Members.insert key value document) :=
  ⟨Members.ascending_insert key value h.ascending, Json.forall_mem_insert h.within hv⟩

/-- Dropping a setting keeps a document sound. -/
theorem Sound.erase {levels : Nat} {document : Document} (h : Sound levels document)
    (key : String) : Sound levels (Members.erase key document) :=
  ⟨Members.ascending_erase key h.ascending, Json.forall_mem_erase h.within⟩

/-- Where settings may nest deeper, more documents are sound. -/
theorem Sound.mono {levels more : Nat} {document : Document} (h : Sound levels document)
    (hle : levels ≤ more) : Sound more document :=
  ⟨h.ascending, fun m hm => ⟨(h.within m hm).ordered, (h.within m hm).depth_le.trans hle⟩⟩

/-! ### From a document to its text and back -/

/-- The text of a document is never empty. -/
theorem encode_isEmpty (document : Document) : (Json.encode document).isEmpty = false := by
  obtain ⟨c, cs, ht, -⟩ := (Value.object document).startsText
  rw [Json.encode, Value.encode, ht]
  apply Bool.eq_false_iff.mpr
  intro h
  have hnil := String.isEmpty_iff.mp h
  have hlist := congrArg String.toList hnil
  rw [String.toList_ofList] at hlist
  cases hlist

/-- A text that is not empty denotes what it is decoded as. -/
theorem load_some {text : String} (h : text.isEmpty = false) (slot : String) :
    load slot (some text) =
      match Json.decode text with
      | .error reason => .error (.malformed slot reason)
      | .ok (.object members) => .ok members
      | .ok _ => .error (.notAnObject slot) := by
  have hne : ¬text.isEmpty = true := by
    rw [h]
    exact Bool.false_ne_true
  exact if_neg hne

/-- A document that is nested no deeper than stored text may be is loaded, each
setting as what its own text is read as. -/
theorem load_encode {document : Document} (h : Members.Ascending document)
    (hd : (Value.object document).depth ≤ Json.greatestDepth) (slot : String) :
    load slot (some (Json.encode document)) = .ok (Json.rereadMembers document) := by
  rw [load_some (encode_isEmpty document), Json.encode, Json.decode_encode hd,
    Json.reread_object h]

/-- A document that is nested deeper is refused. -/
theorem load_encode_refused {document : Document}
    (hd : Json.greatestDepth < (Value.object document).depth) (slot : String) :
    ∃ reason, load slot (some (Json.encode document)) = .error (.malformed slot reason) := by
  obtain ⟨reason, hr⟩ := Json.decode_encode_refused hd
  exact ⟨reason, by rw [load_some (encode_isEmpty document), Json.encode, hr]⟩

/-- Loading the text of a document gives the document back exactly when it is
nested at most 127 deep and each of its doubles is read back; nested 128 deep or
more, its text is refused as malformed. -/
theorem load_encode_eq_iff (slot : String) {document : Document}
    (h : (Value.object document).Ordered) :
    (load slot (some (Json.encode document)) = .ok document ↔
      (Value.object document).depth ≤ 127 ∧
        ∀ x ∈ (Value.object document).floats, Json.ReadsBack x) ∧
    (128 ≤ (Value.object document).depth →
      ∃ reason, load slot (some (Json.encode document)) = .error (.malformed slot reason)) := by
  have hasc := (Json.ordered_object_iff.mp h).1
  have hfloats := Value.reread_eq_iff h
  rw [Json.reread_object hasc, Value.object.injEq] at hfloats
  refine ⟨⟨fun hload => ?_, fun ⟨hd, hx⟩ => ?_⟩, fun hd => load_encode_refused hd slot⟩
  · rcases Nat.lt_or_ge Json.greatestDepth (Value.object document).depth with hd | hd
    · -- a refused text denotes no document at all
      obtain ⟨reason, hr⟩ := load_encode_refused hd slot
      rw [hr] at hload
      cases hload
    · rw [load_encode hasc hd] at hload
      injection hload with hload
      exact ⟨hd, hfloats.mp hload⟩
  · rw [load_encode hasc hd, hfloats.mpr hx]

/-- A document with one half in it is loaded from its text. -/
theorem load_encode_eq_oneHalf :
    (Value.object [("ratio", .number (.float Json.oneHalf))]).Ordered ∧
      load "operaton" (some (Json.encode [("ratio", .number (.float Json.oneHalf))])) =
        .ok [("ratio", .number (.float Json.oneHalf))] := by
  have hord : (Value.object [("ratio", .number (.float Json.oneHalf))]).Ordered :=
    ⟨List.pairwise_singleton _ _, trivial, trivial⟩
  refine ⟨hord, (load_encode_eq_iff "operaton" hord).1.mpr ⟨by decide, fun x hx => ?_⟩⟩
  rw [List.mem_singleton.mp hx]
  exact Json.readsBack_oneHalf

/-! ### What is loaded -/

/-- Settings that are loaded are nested at most 126 deep, one less than a whole
text may be. -/
theorem load_ok {slot : String} {text : Option String} {document : Document}
    (h : load slot text = .ok document) : Sound 126 document := by
  cases text with
  | none => cases h; exact sound_nil 126
  | some text =>
    cases he : text.isEmpty with
    | true =>
      rw [load, he, if_pos rfl] at h
      cases h
      exact sound_nil 126
    | false =>
      rw [load_some he] at h
      cases hv : Json.decode text with
      | error reason => rw [hv] at h; cases h
      | ok v =>
        have hw := Json.decode_ok hv
        rw [hv] at h
        cases v with
        | object members =>
          cases h
          obtain ⟨hasc, hord⟩ := Json.ordered_object_iff.mp hw.ordered
          have hdepth := Json.depth_object_le_iff.mp hw.depth_le
          exact ⟨hasc, fun m hm => ⟨hord m hm, hdepth m hm⟩⟩
        | null | bool | number | string | array => cases h

/-- A store that is opened holds what the text in its slot is loaded as. -/
theorem openSlot_loaded {σ : Type} {access : Storage.Access σ} {slot : String} {world : σ}
    {store : Store} (h : (openSlot access slot world).1 = .ok store) :
    store.slot = slot ∧
      ∃ raw, access.read slot world = .ok raw ∧ load slot raw = .ok store.document := by
  unfold openSlot at h
  cases hr : access.read slot world with
  | error error => rw [hr] at h; cases h
  | ok raw =>
    rw [hr] at h
    cases hl : load slot raw with
    | error error => simp only [hl] at h; cases h
    | ok document =>
      simp only [hl] at h
      cases h
      exact ⟨rfl, raw, rfl, hl⟩

/-- A store that is opened is sound. -/
theorem openSlot_ok {σ : Type} {access : Storage.Access σ} {slot : String} {world : σ}
    {store : Store} (h : (openSlot access slot world).1 = .ok store) :
    store.slot = slot ∧ Sound 126 store.document := by
  obtain ⟨hslot, raw, -, hload⟩ := openSlot_loaded h
  exact ⟨hslot, load_ok hload⟩

end Settings.Store
