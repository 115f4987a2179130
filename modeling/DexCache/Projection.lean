import DexCache.Json.Value
import DexCache.Query.Operation
import DexCache.Schema

/-!
# Projecting raw values onto selections

An answer holds exactly the requested response keys, in request order, at every depth.
What the raw value lacks is null; so is an object asked of a scalar.
-/

namespace DexCache.Projection

open Query (Field)

/-- The field that asks for the type of the object it stands in. -/
def typenameField : String := "__typename"

mutual
/-- The answer to one selected field of a raw value. -/
def fieldValue (raw : Json) (type : String) : Field → Json
  | ⟨_, name, _, subfields⟩ =>
    if name = typenameField then .str type
    else
      let value := (raw.get? name).getD .null
      if subfields.isEmpty then value
      else
        let child := Schema.childType type name
        let nested (v : Json) : Json :=
          match v with
          | .obj _ => .obj (addFields v child [] subfields)
          | _ => .null
        match value with
        | .arr items => .arr (items.map nested)
        | other => nested other

/-- Adds to an object the answers to selected fields of a raw value. -/
def addFields (raw : Json) (type : String) (done : Json.Object) : List Field → Json.Object
  | [] => done
  | f :: rest =>
    addFields raw type (done.insert f.responseKey (fieldValue raw type f)) rest
end

/-- The object that answers a selection set. -/
def project (raw : Json) (fields : List Field) (type : String) : Json :=
  .obj (addFields raw type [] fields)

end DexCache.Projection
