import DexCache.Json.Printer

/-!
# Why a value does not fit a type

The causes for which a JSON value is not read as a value of some type, each with its
report.
-/

namespace DexCache.Json

/-- What was found in the place of something else. -/
inductive Found where
  | value (value : Json)
  | unitVariant
deriving DecidableEq, Repr

/-- The report of what was found; arrays and objects are named by their kind. -/
def Found.text : Found → String
  | .value .null => "null"
  | .value (.bool b) => "boolean `" ++ toString b ++ "`"
  | .value (.int i) => "integer `" ++ String.ofList (Decimal.intChars i) ++ "`"
  | .value (.float d) => "floating point `" ++ String.ofList (Decimal.Form.body.chars d) ++ "`"
  | .value (.str s) => "string " ++ Text.reportQuoted s
  | .value (.arr _) => "sequence"
  | .value (.obj _) => "map"
  | .unitVariant => "unit variant"

/-- Why a text is not a date or a time. -/
inductive TimeFault where
  | tooShort
  | invalid
  | outOfRange
  | impossible
  | tooLong
deriving DecidableEq, Repr

/-- The report of a fault in a date or a time. -/
def TimeFault.message : TimeFault → String
  | .tooShort => "premature end of input"
  | .invalid => "input contains invalid characters"
  | .outOfRange => "input is out of range"
  | .impossible => "no possible date and time matching input"
  | .tooLong => "trailing input"

/-- Why a JSON value is not a value of the expected type. -/
inductive Fault where
  | invalidType (found : Found) (expected : String)
  | invalidValue (found : Found) (expected : String)
  | invalidLength (length : Nat) (expected : String)
  | missingField (name : String)
  | unknownVariant (name : String) (expected : List String)
  | noVariantFits (type : String)
  | notDecimal (value : Json)
  | time (fault : TimeFault)
deriving DecidableEq, Repr

/-- The alternatives of an unknown variant. -/
def alternatives : List String → String
  | [a] => "`" ++ a ++ "`"
  | [a, b] => "`" ++ a ++ "` or `" ++ b ++ "`"
  | names => "one of " ++ ", ".intercalate (names.map fun n => "`" ++ n ++ "`")

/-- The report of a fault. -/
def Fault.message : Fault → String
  | .invalidType found expected =>
    "invalid type: " ++ found.text ++ ", expected " ++ expected
  | .invalidValue found expected =>
    "invalid value: " ++ found.text ++ ", expected " ++ expected
  | .invalidLength length expected =>
    "invalid length " ++ toString length ++ ", expected " ++ expected
  | .missingField name => "missing field `" ++ name ++ "`"
  | .unknownVariant name expected =>
    "unknown variant `" ++ name ++ "`, expected " ++ alternatives expected
  | .noVariantFits type => "data did not match any variant of untagged enum " ++ type
  | .notDecimal value => "not a decimal: " ++ value.body
  | .time fault => fault.message

end DexCache.Json
