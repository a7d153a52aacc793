import Settings.Binary.Text
import Settings.Datum.Basic
import Settings.Json.Writer

/-!
# The stored form of a typed value

The stored form forgets what stored text cannot say: how wide a number was,
which alternative of two that look alike it was, the order of fields. Numbers
that are not finite become null. Two things have no stored form, an integer
outside the stored range and a key that does not become a text, and a value may
refuse. The first obstacle in the order of the value decides.
-/

namespace Settings.Datum

/-- The text of a finite key; other numbers are no keys. -/
def finiteKey {F : Binary.Format} (layout : Decimal.Layout) :
    Binary F → Except Refusal String
  | .finite x => .ok (String.ofList (x.textIn layout))
  | _ => .error .keyNotFinite

/-- The text under which a map stores the value of a key. -/
def toKey : Datum → Except Refusal String
  | .bool b => .ok (toString b)
  | .integer n => .ok (String.ofList (Decimal.integerText n))
  | .single x => finiteKey Binary.storedSingle x
  | .double x => finiteKey Binary.storedDouble x
  | .char c => .ok (String.ofList [c])
  | .text s => .ok s
  | .named name => .ok name
  | .wrapped d => d.toKey
  | .refusing reason => .error (.refused reason)
  | .stored (.bool b) => .ok (toString b)
  | .stored (.number n) => .ok (String.ofList n.text)
  | .stored (.string s) => .ok s
  | _ => .error .keyNotString

/-- A double as a stored value: null unless it is finite. -/
def ofDouble : Binary Binary.double → Json.Value
  | .finite x => .number (.float x)
  | _ => .null

/-- An integer as a stored value. -/
def ofInteger (n : Int) : Except Refusal Json.Value :=
  match Json.Number.ofInt? n with
  | some n => .ok (.number n)
  | none => .error .outOfRange

/-- A byte as a stored value. -/
def ofByte (b : UInt8) : Json.Value :=
  .number (.integer b.toNat (by
    have := b.toNat_lt
    simp only [Json.leastInteger, Json.greatestInteger]
    omega))

mutual

/-- The stored form of a typed value. -/
def toValue : Datum → Except Refusal Json.Value
  | .bool b => .ok (.bool b)
  | .integer n => ofInteger n
  | .single x => .ok (ofDouble (x.convert Binary.double))
  | .double x => .ok (ofDouble x)
  | .char c => .ok (.string (String.ofList [c]))
  | .text s => .ok (.string s)
  | .bytes bs => .ok (.array (bs.map ofByte))
  | .absent => .ok .null
  | .present d => d.toValue
  | .unit => .ok .null
  | .named name => .ok (.string name)
  | .wrapped d => d.toValue
  | .tagged name d => do
    let v ← d.toValue
    return .object [(name, v)]
  | .sequence ds => do
    let items ← toValues ds
    return .array items
  | .map entries => do
    let members ← toEntries entries
    return .object (Json.Members.ofEntries members)
  | .record fields => do
    let members ← toFields fields
    return .object (Json.Members.ofEntries members)
  | .stored v => .ok v
  | .refusing reason => .error (.refused reason)

/-- The stored forms of a sequence, the first obstacle first. -/
def toValues : List Datum → Except Refusal (List Json.Value)
  | [] => .ok []
  | d :: rest => do
    let v ← d.toValue
    let vs ← toValues rest
    return v :: vs

/-- The stored entries of a map; a key is looked at before its value. -/
def toEntries : List (Datum × Datum) → Except Refusal (List (String × Json.Value))
  | [] => .ok []
  | (key, d) :: rest => do
    let k ← key.toKey
    let v ← d.toValue
    let entries ← toEntries rest
    return (k, v) :: entries

/-- The stored fields of a record. -/
def toFields : List (String × Datum) → Except Refusal (List (String × Json.Value))
  | [] => .ok []
  | (name, d) :: rest => do
    let v ← d.toValue
    let fields ← toFields rest
    return (name, v) :: fields

end

end Settings.Datum
