import MapQuery.Decimal.Numeral
import MapQuery.Host.Value
import MapQuery.Text.Blank
import MapQuery.Text.LetterCase

/-!
# Sorts of values

A question can compare with three sorts of values: texts, numbers and truth values. Hosts are less
strict, and often store the categories of a legend as texts whatever the field holds, so a stored
value is converted to the sort of its field where that is possible.
-/

namespace MapQuery

inductive ValueSort where
  | string
  | number
  | boolean
deriving Repr, DecidableEq

namespace ValueSort

def name : ValueSort → String
  | string => "string"
  | number => "number"
  | boolean => "boolean"

/-- The sort of the values that a host stores in fields of a type, if there is one. -/
def ofFieldType? : FieldType → Option ValueSort
  | .string => some string
  | .int32 | .uint32 | .int64 | .uint64 | .double => some number
  | .boolean => some boolean
  | .date | .dateTime | .binary | .other _ => none

/-- The number that a text denotes: an integer if it is written as one and fits 64 bits, and
otherwise a finite float. -/
def numberOfText? (text : String) : Option AttributeValue := do
  let numeral ← Numeral.ofText? (Text.trim text.toList)
  if numeral.isInteger then
    if let some value := numeral.toInt64? then
      return .integer value
  if numeral.toFloat.isFinite then some (.real numeral.toFloat) else none

/-- The truth value that a text names. -/
def booleanOfText? (text : String) : Option AttributeValue :=
  let word := Text.lowercase (String.ofList (Text.trim text.toList))
  if word ∈ ["true", "t", "yes", "1"] then some (.boolean true)
  else if word ∈ ["false", "f", "no", "0"] then some (.boolean false)
  else none

/-- The stored value as a value of the sort, if it can be read as one. -/
def convert? : ValueSort → AttributeValue → Option AttributeValue
  | _, .null => none
  | string, .text value => some (.text value)
  | string, value => some (.text value.display)
  | number, .integer value => some (.integer value)
  | number, .real value => some (.real value)
  | number, .boolean value => some (.integer (if value then 1 else 0))
  | number, .text value => numberOfText? value
  | boolean, .boolean value => some (.boolean value)
  | boolean, .integer value =>
    if value = 0 then some (.boolean false)
    else if value = 1 then some (.boolean true)
    else none
  | boolean, .real _ => none
  | boolean, .text value => booleanOfText? value

end ValueSort

end MapQuery
