import DexCache.Json.Reader

/-!
# Requests and responses
-/

namespace DexCache

/-- A query document with its variables. -/
structure Request where
  query : String
  variableValues : Json.Object := []
deriving DecidableEq, Repr, Inhabited

/-- Reads a request. -/
def Request.reader : Json.Reader Request :=
  .record "GraphQlRequest" (Json.FieldsReader.pure Request.mk
    |>.andField (.required "query" .string)
    |>.andField (.default "variables" .object [])) false

/-- The answer to a request: its data, if there are any, and what went wrong. -/
structure Response where
  data : Option Json.Object := none
  errors : List Json := []
deriving DecidableEq, Repr, Inhabited

namespace Response

/-- Reads a response. -/
def reader : Json.Reader Response :=
  .record "QueryResponse" (Json.FieldsReader.pure Response.mk
    |>.andField (.default "data" (.optional .object) none)
    |>.andField (.default "errors" (.list .any) [])) false

/-- The JSON object of a response; an empty list of errors is left out. -/
def toJson (r : Response) : Json :=
  .obj (("data", .ofOption .obj r.data) ::
    if r.errors.isEmpty then [] else [("errors", .arr r.errors)])

end Response

end DexCache
