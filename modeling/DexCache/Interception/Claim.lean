import DexCache.Failure
import DexCache.Interception.Merge
import DexCache.Listing.Shelf
import DexCache.Query.Argument

/-!
# Claiming fields for the store

A top-level field is claimed for the store if it is a listing whose selected fields are
backed by fresh groups.  Unless it selects fields that the store never holds, it is
answered from the store alone; otherwise it is shared: the resolver gets those fields and
the identifier, and the store adds the rest afterwards.
-/

namespace DexCache.Interception

open Query (Field)

/-- A field that the store and the resolver answer together. -/
structure Shared where
  key : String
  kind : EntityKind
  listing : Listing
  arguments : Json.Object
  asked : Field
  /-- What the store answers, the identifier included. -/
  localFields : List Field
  /-- Was the identifier not asked for? -/
  forced : Bool
deriving Repr

/-- What is to be done with a top-level field. -/
inductive Claim where
  | declined
  | answered (value : Json)
  | shared (sent : Field) (part : Shared)
deriving Repr

/-- Changes the first of these fields with a name. -/
def updateFirst (name : String) (f : Field → Field) : List Field → List Field
  | [] => []
  | g :: rest => if g.name = name then f g :: rest else g :: updateFirst name f rest

/-- The selection of a listing with its selections on entities replaced in their place. -/
def localSelection (l : Listing) (selection : Field) (fields : List Field) : List Field :=
  match l.shape with
  | .list => fields
  | .connection =>
    updateFirst "edges" (fun edges =>
      { edges with
        subfields := updateFirst "node" (fun node => { node with subfields := fields })
          edges.subfields }) selection.subfields

/-- The listing of this name and what it lists. -/
def listing? (name : String) : Option (EntityKind × Listing) :=
  [EntityKind.pair, .token].findSome? fun kind => (kind.listing? name).map fun l => (kind, l)

/-- Fields with the plain identifier behind them, unless they have it. -/
def withIdentifier (l : Listing) (fields : List Field) : List Field :=
  if Field.plain l.identifierField ∈ fields then fields
  else fields ++ [.plain l.identifierField]

/-- The parts of a field that the store and the resolver answer together. -/
def share (kind : EntityKind) (l : Listing) (field : Field) (arguments : Json.Object) : Claim :=
  let fields := l.entityFields field
  let missing := fields.filter fun f => l.isMissing f.name
  let held := fields.filter fun f => !l.isMissing f.name
  .shared (l.withEntityFields field (withIdentifier l missing))
    { key := field.responseKey
      kind := kind
      listing := l
      arguments := arguments
      asked := field
      localFields := localSelection l field (withIdentifier l held)
      forced := !fields.any fun f => f.name = l.identifierField && f.alias?.isNone }

/-- What is to be done with a top-level field, with the store as it is now. -/
def claim (s : Store) (now : Int) (supplied : Json.Object) (field : Field) :
    Except Query.Error Claim :=
  match listing? field.name with
  | none => .ok .declined
  | some (kind, l) =>
    let fields := l.entityFields field
    let held := fields.filter fun f => !l.isMissing f.name
    if fields.isEmpty || !s.isFreshFor kind held now then .ok .declined
    else do
      let arguments ← field.argumentsJson supplied
      if fields.all fun f => !l.isMissing f.name then
        return .answered (← s.respond kind field.name arguments field.subfields)
      else
        return share kind l field arguments

/-- What the hook after execution has to do. -/
structure Plan where
  /-- The response keys in the order of the request. -/
  order : List String := []
  answered : List (String × Json) := []
  shared : List Shared := []
deriving Repr

/-- Claims fields in order; what is left for the resolver, and the plan for the rest. -/
def plan (s : Store) (now : Int) (supplied : Json.Object) :
    List Field → Except Query.Error (List Field × Plan)
  | [] => .ok ([], {})
  | field :: rest => do
    let claimed ← claim s now supplied field
    let (remaining, p) ← plan s now supplied rest
    let p := { p with order := field.responseKey :: p.order }
    match claimed with
    | .declined => return (field :: remaining, p)
    | .answered value =>
      return (remaining, { p with answered := (field.responseKey, value) :: p.answered })
    | .shared sent part => return (sent :: remaining, { p with shared := part :: p.shared })

/-- Does the plan claim no field? -/
def Plan.isEmpty (p : Plan) : Bool :=
  p.answered.isEmpty && p.shared.isEmpty

/-- Adds the store's part of a shared field to a response. -/
def addShared (s : Store) (data : Json.Object) (part : Shared) :
    Except Query.Error Json.Object :=
  match (data.get? part.key).getD .null with
  | .null => do
    return data.insert part.key
      (← s.respond part.kind part.asked.name part.arguments part.asked.subfields)
  | resolved => do
    let here ← s.respond part.kind part.asked.name part.arguments part.localFields
    return data.insert part.key (merge part.listing part.forced resolved here)

/-- Completes a response by a plan. -/
def Plan.complete (p : Plan) (s : Store) (data : Json.Object) :
    Except Query.Error Json.Object := do
  let data ← p.shared.foldlM (addShared s) data
  let data := p.answered.foldl (fun data a => data.insert a.1 a.2) data
  return reorder data p.order

end DexCache.Interception
