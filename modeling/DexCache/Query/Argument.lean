import DexCache.Query.Error

/-!
# Arguments as JSON

Literals become JSON values once their variables are replaced by the values supplied
with the request.  A variable that was not supplied is an error.
-/

namespace DexCache.Query

namespace Literal

mutual
/-- The JSON value of a literal. -/
def toJson (supplied : Json.Object) : Literal → Except Error Json
  | .null => .ok .null
  | .bool b => .ok (.bool b)
  | .int i => .ok (.int i.toInt)
  | .float d => .ok (if d.isFinite then .float d else .null)
  | .str s => .ok (.str s)
  | .enumValue name => .ok (.str name)
  | .list items => (itemsToJson supplied items).map .arr
  | .object fields => (fieldsToJson supplied [] fields).map .obj
  | .var name =>
    match supplied.get? name with
    | some value => .ok value
    | none => .error (.missingVariable name)

/-- The JSON values of a list of literals. -/
def itemsToJson (supplied : Json.Object) : List Literal → Except Error (List Json)
  | [] => .ok []
  | item :: rest => do
    let value ← toJson supplied item
    let more ← itemsToJson supplied rest
    return value :: more

/-- The object written by setting named literals from left to right on `done`. -/
def fieldsToJson (supplied : Json.Object) (done : Json.Object) :
    List (String × Literal) → Except Error Json.Object
  | [] => .ok done
  | (name, literal) :: rest => do
    let value ← toJson supplied literal
    fieldsToJson supplied (done.insert name value) rest
end

end Literal

/-- The arguments of a field as a JSON object. -/
def Field.argumentsJson (f : Field) (supplied : Json.Object) : Except Error Json.Object :=
  Literal.fieldsToJson supplied [] f.arguments

end DexCache.Query
