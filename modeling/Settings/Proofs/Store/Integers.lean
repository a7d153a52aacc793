import Settings.Proofs.Json.Integers
import Settings.Proofs.Json.Unambiguous
import Settings.Proofs.Store.Changes
import Settings.Proofs.Store.Opening
import Settings.Proofs.Store.TypedReads

/-!
# Integers in a store

What a store holds at a place decides what typed reads give and what is written there. Where
it holds an integer, a read as an integer of any kind gives this integer or is refused, and
the text has the literal of the integer. Where it holds a double, such a read is refused.
Opening a store over a text puts the integers of the text in their places; setting an integer
puts it under its key, unless no number of stored text can be this integer.
-/

namespace Settings.Store

open Json (Value Members Descent Tree SpellsText Stands Storable)
open Storage (Access)

/-- The part of the settings at the end of a path. -/
def at? (store : Store) (path : List Descent) : Option Value :=
  (Value.object store.document).at? path

variable {store : Store} {path : List Descent} {n : Int}

/-- At a key alone stands its setting. -/
theorem at?_member (store : Store) (key : String) : store.at? [.member key] = store.find? key := by
  have hbind : store.at? [.member key] = (store.find? key).bind (Value.at? []) := rfl
  rw [hbind]
  cases store.find? key <;> rfl

/-- What stands below a key is a matter of its setting. -/
theorem at?_congr {first second : Store} {key : String} (h : first.find? key = second.find? key)
    (path : List Descent) : first.at? (.member key :: path) = second.at? (.member key :: path) :=
  congrArg (fun found => Option.bind found (Value.at? path)) h

/-- Below the settings a number can only stand under a key. -/
theorem head_of_at?_number {number : Json.Number} (h : store.at? path = some (.number number)) :
    ∃ key rest, path = .member key :: rest := by
  cases path with
  | nil => cases h
  | cons step rest =>
    cases step with
    | item index => cases h
    | member key => exact ⟨key, rest, rfl⟩

/-! ### What follows from a number at a place -/

/-- A store holds an integer at a place, gives it to typed reads and writes its literal. -/
structure HoldsInteger (store : Store) (path : List Descent) (n : Int) : Prop where
  /-- The integer stands in memory. -/
  at?_eq : ∃ h, store.at? path = some (.number (.integer n h))
  /-- A read of a key gives the integer when it belongs to the kind. -/
  getAs_ok : ∀ key, path = [.member key] → ∀ kind : IntegerKind,
    kind.least ≤ n ∧ n < kind.limit →
      ∀ default, store.getAs (.integer kind) key default = .ok (.integer n)
  /-- Otherwise the read is refused. -/
  getAs_mismatch : ∀ key, path = [.member key] → ∀ kind : IntegerKind,
    ¬(kind.least ≤ n ∧ n < kind.limit) →
      ∀ default, ∃ reason, store.getAs (.integer kind) key default = .error (.mismatch key reason)
  /-- The text of the store has the literal of the integer. -/
  stands : Stands store.text path n

/-- A store holds a double at a place, and a read of it as an integer is refused. -/
structure HoldsFloat (store : Store) (path : List Descent) : Prop where
  /-- The double stands in memory. -/
  at?_eq : ∃ x, store.at? path = some (.number (.float x))
  /-- A read as an integer of any kind is refused. -/
  getAs_mismatch : ∀ key, path = [.member key] → ∀ kind default,
    ∃ reason, store.getAs (.integer kind) key default = .error (.mismatch key reason)

/-- An ordered store with an integer at a place gives it and writes it. -/
theorem holdsInteger_of_at? (ho : store.Ordered)
    (h : ∃ hrange, store.at? path = some (.number (.integer n hrange))) :
    store.HoldsInteger path n := by
  obtain ⟨hrange, hat⟩ := h
  have hread (key : String) (hpath : path = [.member key]) (kind : IntegerKind)
      (default : Datum) : store.getAs (.integer kind) key default =
        ((Schema.integer kind).read (.number (.integer n hrange))).mapError (.mismatch key) := by
    rw [hpath, at?_member] at hat
    exact getAs_of_find? hat default
  have hinteger (kind : IntegerKind) : (Schema.integer kind).read (.number (.integer n hrange)) =
      if kind.least ≤ n ∧ n < kind.limit then .ok (.integer n)
      else .error (.value (.integer n) kind.name) := rfl
  refine ⟨⟨hrange, hat⟩, fun key hpath kind hkind default => ?_,
    fun key hpath kind hkind default => ?_, Json.stands_encode ho hat⟩
  · rw [hread key hpath, hinteger, if_pos hkind]
    rfl
  · rw [hread key hpath, hinteger, if_neg hkind]
    exact ⟨_, rfl⟩

/-- A store with a double at a place refuses to read it as an integer. -/
theorem holdsFloat_of_at? (h : ∃ x, store.at? path = some (.number (.float x))) :
    store.HoldsFloat path := by
  refine ⟨h, fun key hpath kind default => ?_⟩
  obtain ⟨x, hat⟩ := h
  rw [hpath, at?_member] at hat
  exact ⟨_, getAs_of_find? hat default⟩

/-! ### Opening a store over a text -/

/-- A text that spells a tree is not empty. -/
theorem ne_empty_of_spells {text : String} {tree : Tree} (h : SpellsText text.toList tree) :
    text ≠ "" := by
  rintro rfl
  generalize hnil : "".toList = chars at h
  cases h with
  | mk hv _ =>
    cases hv with
    | mk _ hs =>
      obtain ⟨c, cs, rfl, -⟩ := hs.startsText
      simp at hnil

/-- Settings that are loaded from a text are what the text is decoded as. -/
theorem decode_of_load {slot text : String} {document : Json.Document} (hne : text ≠ "")
    (h : load slot (some text) = .ok document) : Json.decode text = .ok (.object document) := by
  rw [load_some (by simpa using hne)] at h
  cases hdecode : Json.decode text with
  | error reason => rw [hdecode] at h; cases h
  | ok v =>
    rw [hdecode] at h
    cases v with
    | object members => cases h; rfl
    | null | bool | number | string | array => cases h

/-- What stands at a place of a text is denoted by what its value has there. -/
theorem at?_of_decode {text : String} {tree part : Tree} (hspells : SpellsText text.toList tree)
    (hat : tree.At path part) {v : Value} (h : Json.decode text = .ok v) :
    ∃ w, v.at? path = some w ∧ part.Denotes w := by
  obtain ⟨spelled, hspelled, -, hdenotes⟩ := Json.decode_ok_iff.mp h
  obtain rfl : tree = spelled := hspells.unique hspelled
  exact hat.denotes hdenotes

variable {σ : Type} {access : Access σ} {slot text : String} {world : σ}

/-- A storable integer of a text is held by the store that is opened over it. -/
theorem holdsInteger_of_opened (hread : access.read slot world = .ok (some text))
    (hstands : Stands text path n) (hn : Storable n)
    (hopen : (openSlot access slot world).1 = .ok store) : store.HoldsInteger path n := by
  obtain ⟨tree, hspells, hat⟩ := hstands
  obtain ⟨-, raw, hraw, hload⟩ := openSlot_loaded hopen
  rw [hread] at hraw
  cases hraw
  have hdecode := decode_of_load (ne_empty_of_spells hspells) hload
  obtain ⟨w, hw, hdenotes⟩ := at?_of_decode hspells hat hdecode
  rw [Json.denotes_of_storable (Json.storable_iff.mp hn) hdenotes] at hw
  exact holdsInteger_of_at? (ordered_openSlot hopen) ⟨_, hw⟩

/-- A text with an integer that is not storable is refused as malformed, or it denotes a
double at the place: in settings that are opened, or in a value that is no object. -/
inductive OpensOutOfRange (text : String) (path : List Descent) (slot : String) :
    Except Error Store → Prop where
  /-- The text is refused. -/
  | malformed (reason : Json.Refusal) :
    OpensOutOfRange text path slot (.error (.malformed slot reason))
  /-- The text denotes no object, and a double at the place. -/
  | notAnObject {v : Value} {x : Binary.Finite Binary.double} (hv : Json.decode text = .ok v)
    (ho : ∀ members, v ≠ .object members) (hat : v.at? path = some (.number (.float x))) :
    OpensOutOfRange text path slot (.error (.notAnObject slot))
  /-- A store is opened that holds a double at the place. -/
  | opened {store : Store} (h : store.HoldsFloat path) : OpensOutOfRange text path slot (.ok store)

/-- An integer of a text that is not storable makes the text malformed or is a double. -/
theorem opensOutOfRange (hread : access.read slot world = .ok (some text))
    (hstands : Stands text path n) (hn : ¬Storable n) :
    OpensOutOfRange text path slot (openSlot access slot world).1 := by
  obtain ⟨tree, hspells, hat⟩ := hstands
  have hne := ne_empty_of_spells hspells
  rw [openSlot_load slot access hread, load_some (by simpa using hne)]
  cases hdecode : Json.decode text with
  | error reason => exact .malformed reason
  | ok v =>
    obtain ⟨w, hw, hdenotes⟩ := at?_of_decode hspells hat hdecode
    obtain ⟨x, rfl⟩ := Json.denotes_of_not_storable hn hdenotes
    cases v with
    | object document => exact .opened (holdsFloat_of_at? ⟨x, hw⟩)
    | null | bool | number | string | array => exact .notAnObject hdecode nofun hw

/-! ### Setting an integer -/

/-- An integer has a stored form exactly when it is storable. -/
theorem toValue_integer_iff {n : Int} :
    (∃ reason, (Datum.integer n).toValue = .error reason) ↔ ¬Storable n := by
  rw [Json.storable_iff]
  constructor
  · rintro ⟨reason, hrefused⟩ hrange
    rw [Schema.toValue_integer.mpr ⟨hrange, rfl⟩] at hrefused
    cases hrefused
  · intro hrange
    cases hvalue : (Datum.integer n).toValue with
    | error reason => exact ⟨reason, rfl⟩
    | ok v =>
      obtain ⟨h, -⟩ := Schema.toValue_integer.mp hvalue
      exact absurd h hrange

/-- What a set of an integer does. -/
structure SetsInteger (access : Access σ) (store : Store) (key : String) (n : Int) (world : σ) :
    Prop where
  /-- It is refused for the stored form exactly when the integer is not storable. -/
  unstorable_iff : (∃ reason, (store.set access key (.integer n) world).result =
    .error (.unstorable key reason)) ↔ ¬Storable n
  /-- When it is refused nothing happens. -/
  refused : ¬Storable n → ∃ reason, store.set access key (.integer n) world =
    ⟨.error (.unstorable key reason), store, world, []⟩
  /-- Otherwise the store holds the integer under the key. -/
  holds : Storable n →
    (store.set access key (.integer n) world).store.HoldsInteger [.member key] n
  /-- One write of the text of the store is attempted. -/
  attempted : Storable n →
    (store.set access key (.integer n) world).Attempted access .storage world

/-- An integer that is set is refused or stored as it is. -/
theorem setsInteger (ho : store.Ordered) (key : String) (n : Int) (access : Access σ)
    (world : σ) : SetsInteger access store key n world := by
  by_cases hn : Storable n
  · have hrange := Json.storable_iff.mp hn
    have hvalue : (Datum.integer n).toValue = .ok (.number (.integer n hrange)) :=
      Schema.toValue_integer.mpr ⟨hrange, rfl⟩
    have hrevised : (store.set access key (.integer n) world).Revised access .storage store key
        (some (.number (.integer n hrange))) world := revised_set hvalue
    have hordered : (store.set access key (.integer n) world).store.Ordered :=
      ordered_set ho key trivial
    have hholds : (store.set access key (.integer n) world).store.HoldsInteger [.member key] n := by
      refine holdsInteger_of_at? hordered ⟨hrange, ?_⟩
      rw [at?_member]
      exact hrevised.find?_self
    have hunstorable : ¬∃ reason, (store.set access key (.integer n) world).result =
        .error (.unstorable key reason) := by
      rintro ⟨reason, hresult⟩
      obtain ⟨failure, -, herror⟩ := hrevised.attempted.error hresult
      cases herror
    exact ⟨⟨fun h => absurd h hunstorable, fun h => absurd hn h⟩, fun h => absurd hn h,
      fun _ => hholds, fun _ => hrevised.attempted⟩
  · obtain ⟨reason, hrefused⟩ := toValue_integer_iff.mpr hn
    have hset : store.set access key (.integer n) world =
        ⟨.error (.unstorable key reason), store, world, []⟩ := set_refused hrefused
    have hresult : (store.set access key (.integer n) world).result =
        .error (.unstorable key reason) := by rw [hset]
    exact ⟨⟨fun _ => hn, fun _ => ⟨reason, hresult⟩⟩, fun _ => ⟨reason, hset⟩,
      fun h => absurd h hn, fun h => absurd h hn⟩

end Settings.Store
