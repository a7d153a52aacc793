import Settings.Proofs.Script.Presented
import Settings.Proofs.Script.Reordered
import Settings.Proofs.Session.SetBack

/-!
# What a script reads of a setting

Every setting that a store for scripts can hold is read without an exception, and what is read is
what a script sees of it: the same shape at every level, with the keys of every object in the one
order of enumeration. Which steps led to the setting makes no difference, and a script that had
defined the properties of the value in another order before it was set would have had the same
outcome in every part: the same text is written, and the same value is read.
-/

namespace Settings.Session

open Script (Presents)

section Read

variable {session : Session} {name : String} {bound : Bound} {key : String} {w : Json.Value}

/-- A store that was opened by steps holds ordered settings. -/
theorem ordered_of_reached {steps : List Step}
    (hfind : (start.after steps).scripted.find? name = some bound)
    (hvalue : bound.store.find? key = some w) : w.Ordered := by
  have hordered : bound.store.Ordered :=
    orderly_reached .script nofun name bound hfind
  exact (Json.ordered_object_iff.mp hordered).2 _ (Json.Members.mem_of_find? hvalue)

/-- After a value is set that is stored, it is read as what is stored, whether the write
succeeded or not. -/
theorem get_after_set (hfind : session.scripted.find? name = some bound) {value : Script.Value}
    (hvalue : Store.fromScript value = .ok (some w)) (default : Script.Value) :
    let later := (session.step (.setScripted name key value)).session
    later.step (.getScripted name key default) =
      later.tell (.value (Script.shown w) ((Script.shown w).same default)) := by
  intro later
  have hset : later = (session.keepScripted name bound.handle
      (bound.store.put bound.handle.access key w session.world).forScript).session := by
    show (session.step _).session = _
    rw [step_setScripted hfind, Store.setForScript, hvalue]
  have hheld : (bound.store.put bound.handle.access key w session.world).forScript.store.find? key =
      some w := Json.Members.find?_insert_self key w bound.store.document
  have hlater : later.scripted.find? name = some ⟨bound.handle,
      (bound.store.put bound.handle.access key w session.world).forScript.store⟩ := by
    rw [hset]
    exact Storage.Items.find?_put_self name _ session.scripted
  exact step_getScripted hlater hheld default

/-- A value with its properties in another order is set with the same outcome, if the value is
stored at all. -/
theorem step_setScripted_reordered {value reordered : Script.Value}
    (hreordered : value.Reordered reordered) {stored : Option Json.Value}
    (hvalue : Store.fromScript value = .ok stored) (key : String) :
    session.step (.setScripted name key reordered) =
      session.step (.setScripted name key value) := by
  have hsame := Store.fromScript_reordered hreordered hvalue
  show session.withScripted name _ = session.withScripted name _
  simp only [Store.setForScript, hsame, hvalue]

end Read

/-- Every setting of a store for scripts that steps can lead to is ordered, and a script sees
every ordered value faithfully. Handing it over throws nothing, and gives the one value that
presents it: the same null and truth values, the units of each text, each safe integer as this
integer, arrays item by item, and objects with exactly its keys, array indices first, ascending
as numbers, and then the others, ascending by their UTF-8 bytes. This is what is read in every
session in which the value stands under a key. Where a script sets a value that is stored as it,
a value with the properties of its objects defined in another order has the same outcome, and the
same is read afterwards. -/
theorem settings_presented :
    (∀ (steps : List Step) (name : String) (bound : Bound) (key : String) (w : Json.Value),
      (start.after steps).scripted.find? name = some bound → bound.store.find? key = some w →
        w.Ordered) ∧
    ∀ w : Json.Value, w.Ordered →
      ∃ v, Store.toScript w = .ok v ∧ Presents w v ∧ (∀ other, Presents w other → other = v) ∧
        ∀ (session : Session) (name : String) (bound : Bound) (key : String)
          (default : Script.Value), session.scripted.find? name = some bound →
          (bound.store.find? key = some w →
            session.step (.getScripted name key default) =
              session.tell (.value v (v.same default))) ∧
          ∀ value reordered : Script.Value, value.Reordered reordered →
            Store.fromScript value = .ok (some w) →
              let outcome := session.step (.setScripted name key value)
              session.step (.setScripted name key reordered) = outcome ∧
                outcome.session.step (.getScripted name key default) =
                  outcome.session.tell (.value v (v.same default)) := by
  refine ⟨fun steps name bound key w hfind hvalue => ordered_of_reached hfind hvalue,
    fun w ho => ?_⟩
  have hpresents : Presents w (Script.shown w) := Script.presents_shown ho
  refine ⟨Script.shown w, Script.toScript_eq w, hpresents, fun other hother =>
    hother.unique hpresents, fun session name bound key default hfind => ⟨fun hvalue => ?_,
      fun value reordered hreordered hstored => ⟨?_, ?_⟩⟩⟩
  · exact step_getScripted hfind hvalue default
  · exact step_setScripted_reordered hreordered hstored key
  · exact get_after_set hfind hstored default

/-- An object with array indices among its keys, one number that is too great for an index, and
two keys that stand in another order by their 16-bit units. -/
def mixedKeys : Json.Document :=
  [("10", .array [.null, .number (.integer 9007199254740991 (by decide))]),
    ("4294967295", .string "é"), ("9", .object [("", .null), ("0", .bool true)]),
    ("\uffff", .bool false), ("😀", .null)]

/-- A store for scripts on an empty page. -/
def emptyPage : Session :=
  start.after [.page "page" [], .openScripted "script" "page" none]

/-- The indices are enumerated first, and it makes no difference that the properties were defined
from the last key to the first. -/
theorem settings_presented_mixedKeys :
    (Json.Value.object mixedKeys).Ordered ∧
      ∃ properties, Store.toScript (.object mixedKeys) = .ok (.object properties) ∧
        properties.map Prod.fst = ["9", "10", "4294967295", "\uffff", "😀"].map Text.unitsOf ∧
        let reversed := Script.Value.ofEntries (mixedKeys.map Script.shownMember).reverse
        let later := (emptyPage.step (.setScripted "script" "mixed" reversed)).session
        later.step (.getScripted "script" "mixed" .undefined) =
          later.tell (.value (.object properties) false) := by
  have ho : (Json.Value.object mixedKeys).Ordered := by
    refine Json.ordered_object_iff.mpr ⟨?_, ?_⟩
    · simp only [mixedKeys, Json.Members.Ascending, List.pairwise_cons, List.mem_cons,
        List.not_mem_nil, or_false, forall_eq_or_imp, forall_eq, false_implies, implies_true,
        List.Pairwise.nil, and_true]
      decide
    · simp only [mixedKeys, List.mem_cons, List.not_mem_nil, or_false, forall_eq_or_imp, forall_eq]
      refine ⟨⟨trivial, trivial, trivial⟩, trivial, ⟨?_, trivial, trivial, trivial⟩, trivial,
        trivial⟩
      exact List.pairwise_pair.mpr (by decide)
  have hs : (Json.Value.object mixedKeys).SafeIntegers := by
    intro n hn
    obtain rfl : n = .integer 9007199254740991 (by decide) := List.mem_singleton.mp hn
    exact Nat.le_refl _
  have hfrom : Store.fromScript (Script.shown (.object mixedKeys)) =
      .ok (some (.object mixedKeys)) := Store.fromScript_shown ho (by decide) hs
  have hshown : Script.shown (.object mixedKeys) =
      .object (Script.defined (mixedKeys.map Script.shownMember)) := rfl
  have hreversed : (Script.shown (.object mixedKeys)).Reordered
      (.ofEntries (mixedKeys.map Script.shownMember).reverse) := by
    have hdistinct : Script.DistinctKeys (mixedKeys.map Script.shownMember) := by
      show List.Nodup _
      decide +kernel
    refine .object hdistinct (List.reverse_perm _).symm (List.forall₂_same.mpr fun p _ => ?_)
    exact .mk (.same p.2)
  have hfind : emptyPage.scripted.find? "script" = some ⟨.page 0, "operaton", []⟩ := rfl
  obtain ⟨-, hall⟩ := settings_presented
  obtain ⟨v, hv, -, -, hread⟩ := hall (.object mixedKeys) ho
  obtain rfl : v = .object (Script.defined (mixedKeys.map Script.shownMember)) := by
    rw [Script.toScript_eq, hshown] at hv
    exact (Except.ok.inj hv).symm
  refine ⟨ho, _, hv, by decide +kernel, ?_⟩
  obtain ⟨-, hset⟩ := hread emptyPage "script" _ "mixed" .undefined hfind
  obtain ⟨hsame, hget⟩ := hset _ _ hreversed hfrom
  intro reversed later
  have hlater : later = (emptyPage.step (.setScripted "script" "mixed"
      (Script.shown (.object mixedKeys)))).session := congrArg Outcome.session hsame
  rw [hlater]
  exact hget

end Settings.Session
