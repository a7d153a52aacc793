import Settings.Datum.Stored
import Settings.Proofs.Json.Scalars

/-!
# What stands in the way of a stored form

A typed value is gone through part by part when it is stored: the value inside an option or
an alternative, the values of a sequence, the keys of a map with their values, the values of
fields. A part stands in the way when it is an integer outside the stored range, a key that
does not become a text, or a value that refuses. A typed value has a stored form exactly when
none of its parts stands in the way, however deep it lies and whatever comes before it, and
the reason that is reported is the reason of one of them.
-/

namespace Settings.Datum

open Json (Value Members bind_ok)

/-- Why a typed value does not become a text as the key of a map. -/
inductive Keyless : Datum → Refusal → Prop
  /-- A number of 32 bits that is not finite. -/
  | single {x : Binary Binary.single} (h : ∀ y, x ≠ .finite y) : Keyless (.single x) .keyNotFinite
  /-- A number of 64 bits that is not finite. -/
  | double {x : Binary Binary.double} (h : ∀ y, x ≠ .finite y) : Keyless (.double x) .keyNotFinite
  /-- Bytes are no text. -/
  | bytes (bs : List UInt8) : Keyless (.bytes bs) .keyNotString
  /-- An optional value is no text, there or not. -/
  | absent : Keyless .absent .keyNotString
  /-- Nor does the text inside an optional value count. -/
  | present (d : Datum) : Keyless (.present d) .keyNotString
  /-- The value of a type that has only one is no text. -/
  | unit : Keyless .unit .keyNotString
  /-- A type of its own is looked through. -/
  | wrapped {d : Datum} {reason : Refusal} (h : Keyless d reason) : Keyless (.wrapped d) reason
  /-- An alternative with content is no text. -/
  | tagged (name : String) (d : Datum) : Keyless (.tagged name d) .keyNotString
  /-- A sequence is no text. -/
  | sequence (ds : List Datum) : Keyless (.sequence ds) .keyNotString
  /-- A map is no text. -/
  | map (entries : List (Datum × Datum)) : Keyless (.map entries) .keyNotString
  /-- A record is no text. -/
  | record (fields : List (String × Datum)) : Keyless (.record fields) .keyNotString
  /-- The stored null is no text. -/
  | storedNull : Keyless (.stored .null) .keyNotString
  /-- A stored array is no text. -/
  | storedArray (vs : List Value) : Keyless (.stored (.array vs)) .keyNotString
  /-- A stored object is no text. -/
  | storedObject (ms : List (String × Value)) : Keyless (.stored (.object ms)) .keyNotString
  /-- The key itself refuses. -/
  | refusing (reason : String) : Keyless (.refusing reason) (.refused reason)

/-- A part of a typed value that is looked at when it is stored. -/
inductive Part where
  /-- A value in its place. -/
  | value (d : Datum)
  /-- The key of an entry. -/
  | key (d : Datum)

/-- The parts of a typed value that are looked at when it is stored, at any depth. -/
inductive Reaches : Datum → Part → Prop
  /-- The value itself. -/
  | here (d : Datum) : Reaches d (.value d)
  /-- What is inside an optional value. -/
  | present {d : Datum} {p : Part} (h : Reaches d p) : Reaches (.present d) p
  /-- What is inside a type of its own. -/
  | wrapped {d : Datum} {p : Part} (h : Reaches d p) : Reaches (.wrapped d) p
  /-- What is inside an alternative. -/
  | tagged {name : String} {d : Datum} {p : Part} (h : Reaches d p) : Reaches (.tagged name d) p
  /-- What is inside a value of a sequence. -/
  | item {ds : List Datum} {d : Datum} {p : Part} (hd : d ∈ ds) (h : Reaches d p) :
    Reaches (.sequence ds) p
  /-- The key of an entry. -/
  | entryKey {entries : List (Datum × Datum)} {entry : Datum × Datum} (he : entry ∈ entries) :
    Reaches (.map entries) (.key entry.1)
  /-- What is inside the value of an entry. -/
  | entryValue {entries : List (Datum × Datum)} {entry : Datum × Datum} {p : Part}
    (he : entry ∈ entries) (h : Reaches entry.2 p) : Reaches (.map entries) p
  /-- What is inside the value of a field. -/
  | field {fields : List (String × Datum)} {field : String × Datum} {p : Part}
    (hf : field ∈ fields) (h : Reaches field.2 p) : Reaches (.record fields) p

/-- A part that stands in the way by itself. -/
inductive Part.Blocks : Part → Refusal → Prop
  /-- An integer outside the stored range. -/
  | integer {n : Int} (h : ¬(Json.leastInteger ≤ n ∧ n ≤ Json.greatestInteger)) :
    Part.Blocks (.value (.integer n)) .outOfRange
  /-- A value that refuses. -/
  | refusing (reason : String) : Part.Blocks (.value (.refusing reason)) (.refused reason)
  /-- A key that does not become a text. -/
  | key {d : Datum} {reason : Refusal} (h : d.Keyless reason) : Part.Blocks (.key d) reason

/-- Some part of a typed value stands in the way, for a reason. -/
def Obstructed (d : Datum) (reason : Refusal) : Prop :=
  ∃ part, d.Reaches part ∧ part.Blocks reason

/-! ### Keys -/

/-- The text of a number as a key is refused when the number is not finite. -/
theorem finiteKey_eq_error_iff {F : Binary.Format} {layout : Decimal.Layout} {x : Binary F}
    {reason : Refusal} :
    finiteKey layout x = .error reason ↔ (∀ y, x ≠ .finite y) ∧ reason = .keyNotFinite := by
  cases x with
  | finite y =>
    have hnone : ¬∀ z, Binary.finite y ≠ .finite z := fun h => h y rfl
    simp only [finiteKey, hnone, reduceCtorEq, false_and]
  | _ => simp [finiteKey, eq_comm]

/-- A key that is refused does not become a text. -/
theorem keyless_of_toKey : ∀ {d : Datum} {reason : Refusal},
    d.toKey = .error reason → d.Keyless reason
  | .single x, _, h => by
    obtain ⟨hx, rfl⟩ := finiteKey_eq_error_iff.mp h
    exact .single hx
  | .double x, _, h => by
    obtain ⟨hx, rfl⟩ := finiteKey_eq_error_iff.mp h
    exact .double hx
  | .wrapped d, _, h => by
    rw [toKey] at h
    exact .wrapped (keyless_of_toKey h)
  | .bytes bs, _, h => by cases h; exact .bytes bs
  | .absent, _, h => by cases h; exact .absent
  | .present d, _, h => by cases h; exact .present d
  | .unit, _, h => by cases h; exact .unit
  | .tagged name d, _, h => by cases h; exact .tagged name d
  | .sequence ds, _, h => by cases h; exact .sequence ds
  | .map entries, _, h => by cases h; exact .map entries
  | .record fields, _, h => by cases h; exact .record fields
  | .stored .null, _, h => by cases h; exact .storedNull
  | .stored (.array vs), _, h => by cases h; exact .storedArray vs
  | .stored (.object ms), _, h => by cases h; exact .storedObject ms
  | .refusing reason, _, h => by cases h; exact .refusing reason
  | .bool _, _, h | .integer _, _, h | .char _, _, h | .text _, _, h | .named _, _, h
  | .stored (.bool _), _, h | .stored (.number _), _, h | .stored (.string _), _, h => by
    simp only [toKey, reduceCtorEq] at h

/-- A key that does not become a text is refused. -/
theorem toKey_of_keyless {d : Datum} {reason : Refusal} (h : d.Keyless reason) :
    d.toKey = .error reason := by
  induction h with
  | single h | double h => simp only [toKey, finiteKey_eq_error_iff, h, and_self, ne_eq,
      not_false_eq_true, implies_true]
  | wrapped h ih => simpa only [toKey] using ih
  | _ => simp only [toKey]

/-! ### Every part of a stored value has a stored form -/

/-- A part has a stored form of its own. -/
def Part.Stored : Part → Prop
  | .value d => ∃ v, d.toValue = .ok v
  | .key d => ∃ k, d.toKey = .ok k

/-- A part that has a stored form does not stand in the way. -/
theorem Part.Stored.not_blocks {part : Part} (h : part.Stored) {reason : Refusal} :
    ¬part.Blocks reason := by
  intro hblocks
  cases hblocks with
  | @integer n hn =>
    obtain ⟨v, hv⟩ := h
    simp only [toValue, ofInteger, Json.Number.ofInt?, hn, dite_false, reduceCtorEq] at hv
  | refusing reason =>
    obtain ⟨v, hv⟩ := h
    simp only [toValue, reduceCtorEq] at hv
  | key hkey =>
    obtain ⟨k, hk⟩ := h
    simp only [toKey_of_keyless hkey, reduceCtorEq] at hk

/-- Every value of a stored sequence is stored. -/
theorem stored_of_toValues {ds : List Datum} : ∀ {vs : List Value}, toValues ds = .ok vs →
    ∀ d ∈ ds, ∃ v, d.toValue = .ok v := by
  induction ds with
  | nil => exact fun _ _ hd => absurd hd List.not_mem_nil
  | cons first rest ih =>
    intro vs h
    rw [toValues] at h
    obtain ⟨v, hv, h⟩ := bind_ok h
    obtain ⟨vs, hvs, -⟩ := bind_ok h
    exact List.forall_mem_cons.mpr ⟨⟨v, hv⟩, ih hvs⟩

/-- Every entry of a stored map has the text of a key and a stored value. -/
theorem stored_of_toEntries {entries : List (Datum × Datum)} :
    ∀ {ms : List (String × Value)}, toEntries entries = .ok ms →
      ∀ entry ∈ entries, (∃ k, entry.1.toKey = .ok k) ∧ ∃ v, entry.2.toValue = .ok v := by
  induction entries with
  | nil => exact fun _ _ he => absurd he List.not_mem_nil
  | cons first rest ih =>
    intro ms h
    rw [toEntries] at h
    obtain ⟨k, hk, h⟩ := bind_ok h
    obtain ⟨v, hv, h⟩ := bind_ok h
    obtain ⟨ms, hms, -⟩ := bind_ok h
    exact List.forall_mem_cons.mpr ⟨⟨⟨k, hk⟩, v, hv⟩, ih hms⟩

/-- Every field of a stored record has a stored value. -/
theorem stored_of_toFields {fields : List (String × Datum)} :
    ∀ {ms : List (String × Value)}, toFields fields = .ok ms →
      ∀ field ∈ fields, ∃ v, field.2.toValue = .ok v := by
  induction fields with
  | nil => exact fun _ _ hf => absurd hf List.not_mem_nil
  | cons first rest ih =>
    intro ms h
    rw [toFields] at h
    obtain ⟨v, hv, h⟩ := bind_ok h
    obtain ⟨ms, hms, -⟩ := bind_ok h
    exact List.forall_mem_cons.mpr ⟨⟨v, hv⟩, ih hms⟩

/-- Every part of a value that has a stored form has one itself. -/
theorem Reaches.stored {d : Datum} {part : Part} (hreach : d.Reaches part) :
    ∀ {v : Value}, d.toValue = .ok v → part.Stored := by
  induction hreach with
  | here d => exact fun h => ⟨_, h⟩
  | present _ ih | wrapped _ ih =>
    intro v h
    rw [toValue] at h
    exact ih h
  | tagged _ ih =>
    intro v h
    rw [toValue] at h
    obtain ⟨w, hw, -⟩ := bind_ok h
    exact ih hw
  | item hd _ ih =>
    intro v h
    rw [toValue] at h
    obtain ⟨vs, hvs, -⟩ := bind_ok h
    obtain ⟨w, hw⟩ := stored_of_toValues hvs _ hd
    exact ih hw
  | entryKey he =>
    intro v h
    rw [toValue] at h
    obtain ⟨ms, hms, -⟩ := bind_ok h
    exact (stored_of_toEntries hms _ he).1
  | entryValue he _ ih =>
    intro v h
    rw [toValue] at h
    obtain ⟨ms, hms, -⟩ := bind_ok h
    obtain ⟨w, hw⟩ := (stored_of_toEntries hms _ he).2
    exact ih hw
  | field hf _ ih =>
    intro v h
    rw [toValue] at h
    obtain ⟨ms, hms, -⟩ := bind_ok h
    obtain ⟨w, hw⟩ := stored_of_toFields hms _ hf
    exact ih hw

/-! ### A refusal is the reason of some part -/

/-- Of two steps the first fails or, after it, the second. -/
theorem bind_error {ε α β : Type} {first : Except ε α} {next : α → Except ε β} {e : ε}
    (h : first >>= next = .error e) :
    first = .error e ∨ ∃ x, first = .ok x ∧ next x = .error e := by
  cases first with
  | error e' => exact .inl (by simpa only [bind, Except.bind, Except.error.injEq] using h)
  | ok x => exact .inr ⟨x, rfl, h⟩

/-- What stands in the way inside a part stands in the way of the whole. -/
theorem Obstructed.mono {d whole : Datum} {reason : Refusal} (h : d.Obstructed reason)
    (hinside : ∀ part, d.Reaches part → whole.Reaches part) : whole.Obstructed reason := by
  obtain ⟨part, hreach, hblocks⟩ := h
  exact ⟨part, hinside part hreach, hblocks⟩

mutual

/-- The reason of a refusal is that of a part that stands in the way. -/
theorem obstructed_of_toValue : ∀ {d : Datum} {reason : Refusal},
    d.toValue = .error reason → d.Obstructed reason
  | .integer n, reason, h => by
    have hn : ¬(Json.leastInteger ≤ n ∧ n ≤ Json.greatestInteger) := by
      intro hn
      simp only [toValue, ofInteger, Json.Number.ofInt?, hn, and_self, dite_true,
        reduceCtorEq] at h
    simp only [toValue, ofInteger, Json.Number.ofInt?, hn, dite_false,
      Except.error.injEq] at h
    subst h
    exact ⟨.value (.integer n), .here _, .integer hn⟩
  | .present d, reason, h => by
    have hd : d.toValue = .error reason := by simpa only [toValue] using h
    exact (obstructed_of_toValue hd).mono fun _ => .present
  | .wrapped d, reason, h => by
    have hd : d.toValue = .error reason := by simpa only [toValue] using h
    exact (obstructed_of_toValue hd).mono fun _ => .wrapped
  | .tagged name d, reason, h => by
    rw [toValue] at h
    rcases bind_error h with hd | ⟨_, _, h⟩
    · exact (obstructed_of_toValue hd).mono fun _ => .tagged
    · simp only [pure, Except.pure, reduceCtorEq] at h
  | .sequence ds, reason, h => by
    rw [toValue] at h
    rcases bind_error h with hds | ⟨_, _, h⟩
    · obtain ⟨d, hd, hobstructed⟩ := obstructed_of_toValues hds
      exact hobstructed.mono fun _ => .item hd
    · simp only [pure, Except.pure, reduceCtorEq] at h
  | .map entries, reason, h => by
    rw [toValue] at h
    rcases bind_error h with hentries | ⟨_, _, h⟩
    · obtain ⟨entry, he, hkey | hvalue⟩ := obstructed_of_toEntries hentries
      · exact ⟨.key entry.1, .entryKey he, .key hkey⟩
      · exact hvalue.mono fun _ => .entryValue he
    · simp only [pure, Except.pure, reduceCtorEq] at h
  | .record fields, reason, h => by
    rw [toValue] at h
    rcases bind_error h with hfields | ⟨_, _, h⟩
    · obtain ⟨field, hf, hobstructed⟩ := obstructed_of_toFields hfields
      exact hobstructed.mono fun _ => .field hf
    · simp only [pure, Except.pure, reduceCtorEq] at h
  | .refusing reason, _, h => by
    simp only [toValue, Except.error.injEq] at h
    subst h
    exact ⟨.value (.refusing reason), .here _, .refusing reason⟩

/-- The refusal of a sequence is that of one of its values. -/
theorem obstructed_of_toValues : ∀ {ds : List Datum} {reason : Refusal},
    toValues ds = .error reason → ∃ d ∈ ds, d.Obstructed reason
  | d :: rest, reason, h => by
    rw [toValues] at h
    rcases bind_error h with hd | ⟨_, _, h⟩
    · exact ⟨d, List.mem_cons_self, obstructed_of_toValue hd⟩
    rcases bind_error h with hrest | ⟨_, _, h⟩
    · obtain ⟨d, hd, hobstructed⟩ := obstructed_of_toValues hrest
      exact ⟨d, List.mem_cons_of_mem _ hd, hobstructed⟩
    · simp only [pure, Except.pure, reduceCtorEq] at h

/-- The refusal of a map is that of the key or the value of one of its entries. -/
theorem obstructed_of_toEntries : ∀ {entries : List (Datum × Datum)} {reason : Refusal},
    toEntries entries = .error reason →
      ∃ entry ∈ entries, entry.1.Keyless reason ∨ entry.2.Obstructed reason
  | (key, d) :: rest, reason, h => by
    rw [toEntries] at h
    rcases bind_error h with hkey | ⟨_, _, h⟩
    · exact ⟨(key, d), List.mem_cons_self, .inl (keyless_of_toKey hkey)⟩
    rcases bind_error h with hd | ⟨_, _, h⟩
    · exact ⟨(key, d), List.mem_cons_self, .inr (obstructed_of_toValue hd)⟩
    rcases bind_error h with hrest | ⟨_, _, h⟩
    · obtain ⟨entry, he, hobstructed⟩ := obstructed_of_toEntries hrest
      exact ⟨entry, List.mem_cons_of_mem _ he, hobstructed⟩
    · simp only [pure, Except.pure, reduceCtorEq] at h

/-- The refusal of a record is that of the value of one of its fields. -/
theorem obstructed_of_toFields : ∀ {fields : List (String × Datum)} {reason : Refusal},
    toFields fields = .error reason → ∃ field ∈ fields, field.2.Obstructed reason
  | (name, d) :: rest, reason, h => by
    rw [toFields] at h
    rcases bind_error h with hd | ⟨_, _, h⟩
    · exact ⟨(name, d), List.mem_cons_self, obstructed_of_toValue hd⟩
    rcases bind_error h with hrest | ⟨_, _, h⟩
    · obtain ⟨field, hf, hobstructed⟩ := obstructed_of_toFields hrest
      exact ⟨field, List.mem_cons_of_mem _ hf, hobstructed⟩
    · simp only [pure, Except.pure, reduceCtorEq] at h

end

/-- A typed value has no stored form exactly when some part of it stands in the way. -/
theorem toValue_fails_iff {d : Datum} :
    (∃ reason, d.toValue = .error reason) ↔ ∃ reason, d.Obstructed reason := by
  constructor
  · rintro ⟨reason, h⟩
    exact ⟨reason, obstructed_of_toValue h⟩
  · rintro ⟨reason, part, hreach, hblocks⟩
    cases hvalue : d.toValue with
    | error first => exact ⟨first, rfl⟩
    | ok v => exact absurd hblocks (hreach.stored hvalue).not_blocks

/-- A number that is no number does not stand in the way, it becomes null. -/
example : (Datum.sequence [.double .nan]).toValue = .ok (.array [.null]) := rfl

end Settings.Datum
