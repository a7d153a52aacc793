import Settings.Binary.Basic
import Settings.Json.Members

/-!
# Values of stored text

A number is an integer of the stored range or a finite double; an integer and a
double of the same magnitude are different values. The type of values does not
force the keys of an object to ascend. That every object at every level has
ascending keys is the predicate `Ordered`, and it holds of whatever the reader
and the typed values produce.
-/

namespace Settings.Json

/-- The least integer that is stored as one. -/
def leastInteger : Int := -9223372036854775808

/-- The greatest integer that is stored as one. -/
def greatestInteger : Int := 18446744073709551615

/-- A number of stored text. -/
inductive Number where
  /-- An integer of the stored range. -/
  | integer (n : Int) (in_range : leastInteger ≤ n ∧ n ≤ greatestInteger)
  /-- A double that is neither NaN nor infinite. -/
  | float (x : Binary.Finite Binary.double)
deriving DecidableEq

/-- An integer as a number, if it is in the stored range. -/
def Number.ofInt? (n : Int) : Option Number :=
  if h : leastInteger ≤ n ∧ n ≤ greatestInteger then some (.integer n h) else none

/-- A value of stored text. -/
inductive Value where
  /-- The null value. -/
  | null
  /-- A truth value. -/
  | bool (b : Bool)
  /-- A number. -/
  | number (n : Number)
  /-- A text. -/
  | string (s : String)
  /-- Values in order. -/
  | array (items : List Value)
  /-- Values under keys. -/
  | object (members : List (String × Value))
deriving Inhabited

mutual

/-- How many containers are nested in one another; a scalar has none. -/
def Value.depth : Value → Nat
  | .array items => depthOfItems items + 1
  | .object members => depthOfMembers members + 1
  | _ => 0

/-- The greatest depth of an item. -/
def depthOfItems : List Value → Nat
  | [] => 0
  | item :: rest => max item.depth (depthOfItems rest)

/-- The greatest depth of a member's value. -/
def depthOfMembers : List (String × Value) → Nat
  | [] => 0
  | (_, value) :: rest => max value.depth (depthOfMembers rest)

end

mutual

/-- The keys of every object at every level ascend. -/
def Value.Ordered : Value → Prop
  | .array items => orderedItems items
  | .object members => Members.Ascending members ∧ orderedMembers members
  | _ => True

/-- Every item is ordered. -/
def orderedItems : List Value → Prop
  | [] => True
  | item :: rest => item.Ordered ∧ orderedItems rest

/-- The value of every member is ordered. -/
def orderedMembers : List (String × Value) → Prop
  | [] => True
  | (_, value) :: rest => value.Ordered ∧ orderedMembers rest

end

/-- The top level of a stored text: settings under their keys. -/
abbrev Document := Members Value

end Settings.Json
