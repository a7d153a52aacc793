import Settings.Proofs.Session.Memory
import Settings.Proofs.Session.Writes

/-!
# Items after a run

What stands under a key of an area of memory after a run is the text of the last
step that wrote there, and the first item when no step did. The induction is on
the steps; each of them puts what it writes and nothing else.
-/

namespace Settings.Session

open Json (Document)
open Storage (Handle Items)

/-- The text that was last written under a key of an area in a run, if one
was. -/
def lastWritten? (session : Session) (area : Nat) (key : String) : List Step → Option String
  | [] => none
  | first :: rest =>
    (lastWritten? (session.step first).session area key rest).or (session.written? area key first)

/-- A run puts the text that it writes last. -/
theorem puts_after (session : Session) (area : Nat) (key : String) (steps : List Step) :
    Puts session area key (session.after steps) (session.lastWritten? area key steps) := by
  induction steps generalizing session with
  | nil => exact puts_of_areas session area key rfl
  | cons first rest ih =>
    have hfirst := puts_step session area key first
    have hrest := ih (session.step first).session
    have hlength := hfirst.length_le
    constructor
    · have hrestLength := hrest.length_le
      rw [after]
      omega
    · intro ha
      have hthere : area < (session.step first).session.world.areas.length := by omega
      rw [after, lastWritten?, Option.or_assoc, ← hfirst.item_eq ha]
      exact hrest.item_eq hthere

/-- After any steps, whichever writes fail among them, the item under a key of an
area is the text that was last written there, or the first item when none was;
a store that was opened before holds what its own changes made of it, those
included whose writing failed; and a step that opens a store or asks for something
leaves the world as it is. -/
theorem item_after_eq_lastWritten (session : Session) {area : Nat}
    (harea : area < session.world.areas.length) (steps : List Step) :
    (∀ key, (session.after steps).item? area key =
      (session.lastWritten? area key steps).or (session.item? area key)) ∧
    (∀ name bound, session.stores.find? name = some bound →
      (∀ step ∈ steps, ∀ storage slot, step ≠ .openStore name storage slot) →
      (session.after steps).stores.find? name = some (bound.edited fun document =>
        steps.foldl (fun document step => step.edit name document) document)) ∧
    ∀ step : Step, step.asks = true →
      ((session.after steps).step step).session.world = (session.after steps).world := by
  refine ⟨fun key => ?_, fun name bound hfind hopen => ?_, fun step hasks => ?_⟩
  · exact (puts_after session area key steps).item_eq harea
  · exact find?_stores_after hfind hopen
  · exact world_of_asks (session.after steps) hasks

/-- Two handles on one area of memory that holds an empty object. -/
def twoHandles : Session :=
  start.after [.memory "first" [("operaton", "\x7b\x7d")], .share "second" "first"]

/-- Two stores over one slot: the first one fails to write a setting, the second
one writes its own, and then the first one writes all that it holds. -/
def healedRun : List Step :=
  [.openStore "a" "first" none, .openStore "b" "second" none,
    .fail "first" none (some (.error .noWindow)), .put "a" "x" "1", .put "b" "y" "2",
    .fail "first" none none, .remove "a" "z"]

/-- The last text that was written has the setting whose own writing failed, and
the setting of the other store is gone. -/
theorem item_after_healedRun :
    0 < twoHandles.world.areas.length ∧
      (twoHandles.after healedRun).item? 0 "operaton" = some "\x7b\"x\":1\x7d" := by
  have harea : 0 < twoHandles.world.areas.length := by decide
  have hitem := (item_after_eq_lastWritten twoHandles harea healedRun).1 "operaton"
  exact ⟨harea, hitem.trans (by decide +kernel)⟩

end Settings.Session
