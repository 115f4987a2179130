import DexCache.Listing.Basic
import DexCache.Json.Value

/-!
# Merging two halves of an answer

A listing can be answered in two halves, some fields of each entity here and some there.
The halves are joined by the identifier of the entities.  Where both have a key the
resolved half wins, and it alone decides which entities there are.
-/

namespace DexCache

namespace Json

/-- Adds to an object the keys it lacks; anything else stays as it is. -/
def fillFrom (target source : Json) : Json :=
  match target, source with
  | .obj t, .obj s => .obj (Object.fill t s)
  | _, _ => target

/-- Takes a key out of an object; anything else stays as it is. -/
def without (v : Json) (key : String) : Json :=
  match v with
  | .obj entries => .obj (Object.swapErase entries key)
  | _ => v

/-- Changes the value of a key that is there. -/
def modify (v : Json) (key : String) (f : Json → Json) : Json :=
  match v with
  | .obj entries => .obj (entries.map fun e => if e.1 = key then (e.1, f e.2) else e)
  | _ => v

/-- The items of an array; nothing else has any. -/
def itemsOf (v : Option Json) : List Json :=
  (v.bind Json.items?).getD []

end Json

namespace Interception

/-- The text that identifies an entity. -/
def identifierOf? (entity : Json) (identifier : String) : Option String :=
  (entity.get? identifier).bind Json.str?

/-- The last of these values with an identifier. -/
def withIdentifier? (idOf : Json → Option String) (values : List Json) (name : String) :
    Option Json :=
  values.reverse.find? fun v => idOf v = some name

/-- An entity of the resolved half, filled up from the local half; `forced` identifiers were
not asked for and are taken out. -/
def mergeItem (identifier : String) (forced : Bool) (locals : List Json) (item : Json) : Json :=
  let idOf (v : Json) := identifierOf? v identifier
  let filled := match (idOf item).bind (withIdentifier? idOf locals) with
    | some here => item.fillFrom here
    | none => item
  if forced then filled.without identifier else filled

/-- The identifier of the entity of an edge. -/
def edgeIdentifier? (identifier : String) (edge : Json) : Option String :=
  (edge.get? "node").bind fun node => identifierOf? node identifier

/-- An edge of the resolved half, filled up from the local half. -/
def mergeEdge (identifier : String) (forced : Bool) (locals : List Json) (edge : Json) : Json :=
  let idOf := edgeIdentifier? identifier
  let filled := match (idOf edge).bind (withIdentifier? idOf locals) with
    | some here =>
      let edge := match here.get? "node" with
        | some node => edge.modify "node" fun n => n.fillFrom node
        | none => edge
      edge.fillFrom here
    | none => edge
  if forced then filled.modify "node" fun n => n.without identifier else filled

/-- The two halves of the answer of a listing, joined. -/
def merge (l : Listing) (forced : Bool) (resolved here : Json) : Json :=
  match l.shape with
  | .list =>
    match resolved with
    | .arr items => .arr (items.map (mergeItem l.identifierField forced (Json.itemsOf here)))
    | other => other
  | .connection =>
    let locals := Json.itemsOf (here.get? "edges")
    let edged := resolved.modify "edges" fun edges =>
      match edges with
      | .arr items => .arr (items.map (mergeEdge l.identifierField forced locals))
      | other => other
    edged.fillFrom here

/-- Brings the keys of an object into an order: each key that is asked for is taken out and
put in front of what is left. -/
def reorder (data : Json.Object) (order : List String) : Json.Object :=
  let (front, rest) := order.foldl (fun (front, rest) key =>
    match Json.Object.get? rest key with
    | some value => (front ++ [(key, value)], rest.swapErase key)
    | none => (front, rest)) (([] : Json.Object), data)
  front ++ rest

end Interception

end DexCache
