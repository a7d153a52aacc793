import Settings.Proofs.Datum.Ordered
import Settings.Proofs.Store.ScriptCalls

/-!
# Stores are ordered

The keys of every object that a store holds ascend, at every level. A store is opened so,
and no change takes the order away, as long as the typed values that are set bring no
object of stored text that is out of order.
-/

namespace Settings.Store

open Json (Members Value)
open Storage (Access)

variable {σ : Type} {access : Access σ} {store : Store} {world : σ}

/-- The keys of all settings ascend at every level. -/
def Ordered (store : Store) : Prop :=
  (Value.object store.document).Ordered

/-- A store that is opened is ordered. -/
theorem ordered_openSlot {slot : String} (h : (openSlot access slot world).1 = .ok store) :
    store.Ordered :=
  (openSlot_ok h).2.ordered

/-- Settings are ordered when an ordered value is put under a key. -/
theorem ordered_insert (h : store.Ordered) (key : String) {value : Value} (hv : value.Ordered) :
    Ordered ⟨store.slot, Members.insert key value store.document⟩ := by
  obtain ⟨hascending, hordered⟩ := Json.ordered_object_iff.mp h
  exact Json.ordered_object_iff.mpr
    ⟨Members.ascending_insert key value hascending, Json.forall_mem_insert hordered hv⟩

/-- Settings are ordered when a key is dropped. -/
theorem ordered_erase (h : store.Ordered) (key : String) :
    Ordered ⟨store.slot, Members.erase key store.document⟩ := by
  obtain ⟨hascending, hordered⟩ := Json.ordered_object_iff.mp h
  exact Json.ordered_object_iff.mpr
    ⟨Members.ascending_erase key hascending, Json.forall_mem_erase hordered⟩

/-- A typed value that is set keeps a store ordered. -/
theorem ordered_set (h : store.Ordered) (key : String) {datum : Datum} (hd : datum.Ordered) :
    (store.set access key datum world).store.Ordered := by
  unfold Store.set
  cases hv : datum.toValue with
  | error reason => exact h
  | ok value => exact ordered_insert h key (Datum.ordered_toValue hd hv)

/-- A script value that is set keeps a store ordered. -/
theorem ordered_setForScript (h : store.Ordered) (key : String) (value : Script.Value) :
    (store.setForScript access key value world).store.Ordered := by
  unfold setForScript
  split
  · next stored hstored => exact ordered_insert h key (fromScript_within hstored).ordered
  · exact ordered_erase h key
  · exact h

end Settings.Store
