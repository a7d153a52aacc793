import Settings.Proofs.Script.Shown
import Settings.Proofs.Script.Stringified
import Settings.Proofs.Store.Opening

/-!
# What a script reads back

A setting is read by a script as what it is shown as, and nothing is thrown; where there
is no setting the default itself is handed back. A value that a script set is shown like
what the script would read from the text of the value, and a setting that was loaded like
the property that the script would find in the loaded text. In both cases the numbers are
assumed to be plain integers, as others may be rounded on their way.
-/

namespace Settings.Store

open Json (Document Members)

/-! ### Reads -/

/-- A read gives a setting that is like a value, or the default itself where no value is
expected. -/
inductive ReadsAs (default : Script.Value) :
    Except Script.Value ScriptRead → Option Script.Value → Prop where
  /-- A setting like the value. -/
  | setting {w v : Script.Value} (h : w.Alike v) : ReadsAs default (.ok (.setting w)) (some v)
  /-- The default itself. -/
  | byDefault : ReadsAs default (.ok (.byDefault default)) none

/-- A setting is shown like a script value, or there is neither. -/
def ShownAlike : Option Json.Value → Option Script.Value → Prop :=
  Option.Rel fun stored v => (Script.shown stored).Alike v

/-- A read gives what the setting is shown like. -/
theorem readsAs_of_shownAlike {store : Store} {key : String} {expected : Option Script.Value}
    (h : ShownAlike (store.find? key) expected) (default : Script.Value) :
    ReadsAs default (store.getForScript key default) expected := by
  unfold getForScript
  generalize store.find? key = found at h
  cases h with
  | none => exact .byDefault
  | some hv =>
    dsimp only
    rw [Script.toScript_eq]
    exact .setting hv

/-! ### Values that were set -/

/-- The stored value of a safe script value is shown like what the script reads from the
text of the value. -/
theorem shown_fromScript {value : Script.Value} (hs : value.Safe) {text : List Char}
    (ht : Script.stringify value = .ok (some text)) {stored : Json.Value}
    (hr : Json.read text = .ok stored) :
    ∃ u, Script.parse text = .ok u ∧ (Script.shown stored).Alike u := by
  obtain ⟨tree, hspells, hplain⟩ := Script.writtenPlain hs false text ht
  obtain ⟨other, hother, -, hdenotes⟩ := Json.read_ok_iff.mp hr
  -- the text that was written and the text that was read spell one tree
  obtain rfl : other = tree := hother.unique hspells.whole
  obtain ⟨u, hu⟩ := Script.exists_means other
  exact ⟨u, Script.parse_ok_iff.mpr ⟨other, hspells.whole, hu⟩,
    Script.alike_of_denotes hdenotes hu hplain⟩

/-! ### Settings that were loaded -/

/-- All numbers of a stored text are plain integers. -/
def PlainText (raw : Option String) : Prop :=
  ∀ text ∈ raw, ∀ tree, Json.readTree text = .ok tree → ∀ l ∈ tree.literals, l.Plain

/-- The own property of an object. -/
def ownProperty (key : String) : Script.Value → Option Script.Value
  | .object properties => properties.lookup (Text.unitsOf key)
  | _ => none

/-- The own property that a script finds in a stored text. Without a text, or in the
empty one, there is none. -/
def storedProperty (key : String) : Option String → Except Json.Failure (Option Script.Value)
  | none => .ok none
  | some text =>
    if text.isEmpty then .ok none else (Script.parse text.toList).map (ownProperty key)

/-- What an object denotes as stored has under every key what its members are shown as. -/
theorem lookup_shown {members : Document} (hasc : Members.Ascending members) (key : String) :
    (Script.defined (Script.shownMembers members)).lookup (Text.unitsOf key) =
      (Members.find? key members).map Script.shown := by
  have hmembers := Members.find?_ofEntries key members
  rw [Members.ofEntries_of_ascending hasc] at hmembers
  rw [(Script.defined_spec _).2, Script.shownMembers_eq, hmembers]
  exact Script.last?_unitsOf Script.shown key members

/-- The members that a tree of plain integers denotes are shown like the properties that
the tree means to a script. -/
theorem properties_of_denotes {tree : Json.Tree} {members : Document} {u : Script.Value}
    (hd : tree.Denotes (.object members)) (hasc : Members.Ascending members)
    (hm : Script.Means tree u) (hp : ∀ l ∈ tree.literals, l.Plain) :
    ∃ properties, u = .object properties ∧ ∀ key,
      ShownAlike (Members.find? key members) (properties.lookup (Text.unitsOf key)) := by
  have halike : (Script.Value.object (Script.defined (Script.shownMembers members))).Alike u :=
    Script.alike_of_denotes hd hm hp
  obtain ⟨properties, rfl, hall⟩ := halike.properties (Script.defined_spec _).1
  refine ⟨properties, rfl, fun key => ?_⟩
  have hkey := hall (Text.unitsOf key)
  rw [lookup_shown hasc] at hkey
  generalize Members.find? key members = found at hkey ⊢
  generalize properties.lookup (Text.unitsOf key) = property at hkey ⊢
  cases found with
  | none => cases hkey; exact .none
  | some w =>
    cases hkey with
    | some hw => exact .some hw

/-- A loaded setting is shown like the property that a script finds in the text. -/
theorem shownAlike_load {slot : String} {raw : Option String} {loaded : Document}
    (hload : load slot raw = .ok loaded) (hplain : PlainText raw) (key : String) :
    ∃ expected, storedProperty key raw = .ok expected ∧
      ShownAlike (Members.find? key loaded) expected := by
  cases raw with
  | none =>
    cases hload
    exact ⟨none, rfl, .none⟩
  | some text =>
    by_cases hempty : text.isEmpty = true
    · have hnone : load slot (some text) = .ok [] := if_pos hempty
      rw [hnone] at hload
      cases hload
      exact ⟨none, if_pos hempty, .none⟩
    · have hproperty : storedProperty key (some text) =
          (Script.parse text.toList).map (ownProperty key) := if_neg hempty
      have hdecode : Json.decode text = .ok (.object loaded) := by
        rw [load_some (Bool.eq_false_iff.mpr hempty)] at hload
        split at hload
        · cases hload
        · next hd => cases hload; exact hd
        · cases hload
      obtain ⟨tree, hspells, -, hdenotes⟩ := Json.decode_ok_iff.mp hdecode
      have hliterals := hplain text rfl tree (Json.readTree_ok_iff.mpr hspells)
      obtain ⟨u, hu⟩ := Script.exists_means tree
      have hparse := Script.parse_ok_iff.mpr ⟨tree, hspells, hu⟩
      obtain ⟨properties, rfl, hall⟩ :=
        properties_of_denotes hdenotes (Json.decode_ok hdecode).ordered.1 hu hliterals
      refine ⟨properties.lookup (Text.unitsOf key), ?_, hall key⟩
      rw [hproperty, hparse]
      rfl

end Settings.Store
