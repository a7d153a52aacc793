import Settings.Proofs.Schema.Faithful
import Settings.Proofs.Store.Ordered

/-!
# Typed reads neither coerce nor lose

A setting is read by a schema without looking at the type of the value that was set. For
schemas of truth values, integers, characters, texts and values of one, and of lists,
tuples, arrays, maps under texts and options that null cannot stand for twice, the typed
value that is read is exactly the one whose stored form stands under the key. If there is
none, the read is refused; what was set is read back, whatever the storage did.
-/

namespace Settings.Store

open Json (Value Members)

variable {schema : Schema} {store : Store} {key : String}

/-- A setting that is there is read by the schema, and a mismatch names its key. -/
theorem getAs_of_find? {w : Value} (hfind : store.find? key = some w) (default : Datum) :
    store.getAs schema key default = (schema.read w).mapError (.mismatch key) := by
  rw [getAs, hfind]

/-- A setting of an ordered store is ordered. -/
theorem Ordered.find? (h : store.Ordered) {w : Value} (hfind : store.find? key = some w) :
    w.Ordered :=
  (Json.ordered_object_iff.mp h).2 _ (Members.mem_of_find? hfind)

/-- What is read of a setting by an exact reading. -/
theorem getAs_ok_iff (hs : schema.Faithful) (h : store.Ordered) {w : Value}
    (hfind : store.find? key = some w) (default : Datum) {x : Datum} :
    store.getAs schema key default = .ok x ↔ schema.Has x ∧ x.toValue = .ok w := by
  rw [getAs_of_find? hfind]
  have hread : (schema.read w).mapError (Error.mismatch key) = .ok x ↔ schema.read w = .ok x := by
    cases schema.read w with
    | error reason => exact ⟨nofun, nofun⟩
    | ok d => exact ⟨fun heq => by cases heq; rfl, fun heq => by cases heq; rfl⟩
  rw [hread]
  exact ⟨hs.exact.sound (h.find? hfind), fun hx => hs.exact.complete hx.1 hx.2⟩

/-- A typed value that has a stored form stands under its key once it was set, whether or
not it could be written. -/
theorem find?_set {σ : Type} (access : Storage.Access σ) (world : σ) {x : Datum} {v : Value}
    (hvalue : x.toValue = .ok v) :
    (store.set access key x world).store.find? key = some v := by
  rw [Store.set, hvalue]
  exact Members.find?_insert_self key v store.document

/-- A typed read of a setting gives a value of the schema exactly when the setting is its
stored form, and it names the key when there is no such value. What is set is read back,
whether or not it could be written. -/
theorem getAs_exact (hs : schema.Faithful) (h : store.Ordered) (key : String) (default : Datum) :
    (∀ w, store.find? key = some w →
      (∀ x, schema.Has x → (store.getAs schema key default = .ok x ↔ x.toValue = .ok w)) ∧
      ((∀ x, schema.Has x → x.toValue ≠ .ok w) →
        ∃ reason, store.getAs schema key default = .error (.mismatch key reason))) ∧
    ∀ {σ : Type} (access : Storage.Access σ) (world : σ) (x : Datum) (v : Value),
      schema.Has x → x.toValue = .ok v →
        (store.set access key x world).store.getAs schema key default = .ok x := by
  refine ⟨fun w hfind => ⟨fun x hx => ?_, fun hnone => ?_⟩, fun access world x v hx hvalue => ?_⟩
  · rw [getAs_ok_iff hs h hfind]
    exact ⟨And.right, fun hvalue => ⟨hx, hvalue⟩⟩
  · cases hread : schema.read w with
    | error reason => exact ⟨reason, by rw [getAs_of_find? hfind, hread]; rfl⟩
    | ok x =>
      obtain ⟨hx, hvalue⟩ := hs.exact.sound (h.find? hfind) hread
      exact absurd hvalue (hnone x hx)
  · rw [getAs_of_find? (find?_set access world hvalue), hs.exact.complete hx hvalue]
    rfl

/-- Lists of optional bytes under texts. -/
def limitsSchema : Schema :=
  .map .text (.list (.option (.integer ⟨false, 8⟩)))

/-- Some limits, one of them missing. -/
def someLimits : Datum :=
  .map [(.text "a", .sequence [.present (.integer 255), .absent]), (.text "b", .sequence [])]

/-- The greatest byte is a stored integer. -/
theorem byte_inRange : Json.leastInteger ≤ 255 ∧ 255 ≤ Json.greatestInteger :=
  ⟨by decide, by decide⟩

/-- A store with these limits and with a float. -/
def limitsStore : Store :=
  ⟨Store.defaultSlot,
    [("limits", .object [("a", .array [.number (.integer 255 byte_inRange), .null]),
      ("b", .array [])]), ("page", .number (.float Json.oneHalf))]⟩

/-- The limits are read as they were set, and the float is no map. -/
theorem getAs_exact_limits :
    (limitsSchema.Faithful ∧ limitsSchema.Has someLimits ∧ limitsStore.Ordered) ∧
      limitsStore.getAs limitsSchema "limits" .unit = .ok someLimits ∧
      ∃ reason, limitsStore.getAs limitsSchema "page" .unit = .error (.mismatch "page" reason) := by
  have hbyte : ∀ d, (Schema.integer ⟨false, 8⟩).Has d → d.toValue ≠ .ok .null := by
    intro d hd
    cases hd with
    | integer =>
      intro hnull
      obtain ⟨_, hnumber⟩ := Schema.toValue_integer.mp hnull
      cases hnumber
  have hs : limitsSchema.Faithful := .map (.list (.option (.integer _) hbyte))
  have hentries : ∀ e ∈ [("a", Datum.sequence [.present (.integer 255), .absent]),
      ("b", Datum.sequence [])],
      (Schema.list (.option (.integer ⟨false, 8⟩))).Has e.2 := by
    intro e he
    simp only [List.mem_cons, List.not_mem_nil, or_false] at he
    rcases he with rfl | rfl
    · refine .list fun d hd => ?_
      simp only [List.mem_cons, List.not_mem_nil, or_false] at hd
      rcases hd with rfl | rfl
      · exact .present (.integer (by decide))
      · exact .absent _
    · exact .list fun _ hd => absurd hd List.not_mem_nil
  have hkeys : Members.Ascending [("a", Datum.sequence [.present (.integer 255), .absent]),
      ("b", Datum.sequence [])] := List.pairwise_pair.mpr (by decide)
  have hlimits : limitsSchema.Has someLimits := .map hkeys hentries
  have hinner : (Value.object [("a", .array [.number (.integer 255 byte_inRange), .null]),
      ("b", .array [])]).Ordered :=
    ⟨List.pairwise_pair.mpr (by decide), ⟨trivial, trivial, trivial⟩, trivial, trivial⟩
  have ho : limitsStore.Ordered :=
    ⟨List.pairwise_pair.mpr (by decide), hinner, trivial, trivial⟩
  obtain ⟨hread, -⟩ := (getAs_exact hs ho "limits" .unit).1 _ rfl
  obtain ⟨-, hrefused⟩ := (getAs_exact hs ho "page" .unit).1 _ rfl
  refine ⟨⟨hs, hlimits, ho⟩, (hread someLimits hlimits).mpr rfl, hrefused fun x hx hvalue => ?_⟩
  cases hx with
  | map hkeys _ =>
    obtain ⟨_, _, hobject⟩ := (Schema.toValue_map hkeys).mp hvalue
    cases hobject

end Settings.Store
