import Settings.Script.Stringify

/-!
# Script values in reports

A report shows a script value with nothing left out, so that values without a
stored form can be told apart. A surrogate without its partner is escaped in a
text and replaced in the message of an error.
-/

namespace Settings.Script

open Text (Units)

/-- A number in a report, where zero keeps its sign. -/
def numberReport : Binary Binary.double → List Char
  | .finite x =>
    if x.rank = 0 ∧ x.negative then ['-', '0'] else Binary.scriptText (.finite x)
  | x => Binary.scriptText x

/-- A kind of value with something in parentheses. -/
def labelled (label : String) (content : List Char) : List Char :=
  label.toList ++ '(' :: (content ++ [')'])

mutual

/-- A value in a report. -/
def report : Value → List Char
  | .undefined => "undefined".toList
  | .null => ['n', 'u', 'l', 'l']
  | .bool b => (toString b).toList
  | .number x => numberReport x
  | .bigint n => Decimal.integerText n ++ ['n']
  | .string s => quote s
  | .symbol description => labelled "Symbol" (description.getD "").toList
  | .function name => labelled "Function" name.toList
  | .array items => '[' :: (joined (reportItems items) ++ [']'])
  | .object properties => '{' :: (joined (reportProperties properties) ++ ['}'])
  | .error name message => name.toList ++ ':' :: ' ' :: Text.decodeUnits message
  | .standIn value => labelled "ToJSON" (report value)
  | .raising thrown => labelled "Throws" (report thrown)

/-- Items in a report. -/
def reportItems : List Value → List (List Char)
  | [] => []
  | item :: rest => report item :: reportItems rest

/-- Properties in a report, in the order of enumeration. -/
def reportProperties : List (Units × Value) → List (List Char)
  | [] => []
  | (key, value) :: rest => (quote key ++ ':' :: report value) :: reportProperties rest

end

/-- A value in a report, as a string. -/
def Value.inspect (value : Value) : String :=
  String.ofList (report value)

end Settings.Script
