import DexCache.Json.Fault
import DexCache.Query.Parser
import DexCache.Text.Base64

/-!
# Why a query is not answered

The causes for which a document is not read or a query is not answered from the store,
each with its report.
-/

namespace DexCache.Query

/-- Why a text is not a cursor. -/
inductive CursorFault where
  | encoding (fault : Text.Base64.Fault)
  | text (fault : Text.Utf8.Fault)
  | content (cursor : String)
deriving DecidableEq, Repr

/-- The report of a bad cursor. -/
def CursorFault.message : CursorFault → String
  | .encoding fault => fault.message
  | .text fault => fault.message
  | .content cursor => cursor

/-- Why a query cannot be read or answered. -/
inductive Error where
  | document (stop : Stop)
  | missingVariable (name : String)
  /-- An argument, or with `none` the arguments as a whole, did not have the right type. -/
  | arguments (query : String) (argument : Option String) (fault : Json.Fault)
  | unknownQuery (name : String)
  | cursor (fault : CursorFault)
deriving DecidableEq, Repr

/-- The report of an error. -/
def Error.message : Error → String
  | .document stop =>
    "invalid query document: unexpected input at offset " ++ toString stop.offset ++ ": " ++
      Text.reportQuoted stop.snippet
  | .missingVariable name => "missing variable: $" ++ name
  | .arguments query none fault =>
    "invalid arguments for " ++ query ++ ": " ++ fault.message
  | .arguments query (some argument) fault =>
    "invalid arguments for " ++ query ++ ": " ++ argument ++ ": " ++ fault.message
  | .unknownQuery name => "query " ++ name ++ " is not servable from the store"
  | .cursor fault => "invalid cursor: " ++ fault.message

end DexCache.Query
