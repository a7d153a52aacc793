import Settings.Datum.Basic

/-!
# Schemas

A schema says which typed value a setting is read as. Schemas are closed under
options, lists, tuples, arrays of a fixed length, maps, records and choices
between named alternatives. The form of an alternative follows from the schema
of its content: content of one value only makes it a bare name, a tuple or a
record is spelled in place, any other content stands under the name.
-/

namespace Settings

/-- The width and the signedness of an integer. -/
structure IntegerKind where
  /-- Whether negative numbers belong to it. -/
  signed : Bool
  /-- The number of bits. -/
  bits : Nat
deriving DecidableEq, Repr

/-- The least integer of a kind. -/
def IntegerKind.least (kind : IntegerKind) : Int :=
  if kind.signed then -((1 <<< (kind.bits - 1) : Nat) : Int) else 0

/-- The first integer that is too great for a kind. -/
def IntegerKind.limit (kind : IntegerKind) : Int :=
  ((1 <<< (if kind.signed then kind.bits - 1 else kind.bits) : Nat) : Int)

/-- A kind as messages name it. -/
def IntegerKind.name (kind : IntegerKind) : String :=
  (if kind.signed then "i" else "u") ++ toString kind.bits

/-- What the keys of a map are read as. -/
inductive KeySchema where
  /-- Texts as they are. -/
  | text
  /-- The words `true` and `false`. -/
  | bool
  /-- Integers in digits. -/
  | integer (kind : IntegerKind)

/-- What a setting is read as. -/
inductive Schema where
  /-- A truth value. -/
  | bool
  /-- An integer of some kind. -/
  | integer (kind : IntegerKind)
  /-- A number of 32 bits. -/
  | single
  /-- A number of 64 bits. -/
  | double
  /-- One character. -/
  | char
  /-- A text. -/
  | text
  /-- The only value of its type. -/
  | unit
  /-- Any stored value. -/
  | any
  /-- A value that may be missing. -/
  | option (content : Schema)
  /-- Values of one schema. -/
  | list (item : Schema)
  /-- As many values as there are schemas. -/
  | tuple (parts : List Schema)
  /-- A fixed number of values of one schema. -/
  | array (length : Nat) (item : Schema)
  /-- Values of one schema under keys. -/
  | map (key : KeySchema) (content : Schema)
  /-- Named fields, each with the value it has when it is missing, if any. A
  closed record has no other fields. -/
  | record (name : String) (closed : Bool) (fields : List (String × Option Datum × Schema))
  /-- One of some named alternatives. -/
  | choice (name : String) (alternatives : List (String × Schema))
deriving Inhabited

end Settings
