import DexCache.Query.Operation

/-!
# Listings

A listing is a top-level field that the store can answer: all entities of one kind that
pass its filters, either as a plain list or as a page of edges.
-/

namespace DexCache

/-- The form of a listing's answer. -/
inductive ListingShape where
  /-- A list, cut by offset and limit. -/
  | list
  /-- A page whose edges hold the entities, cut by cursors. -/
  | connection
deriving DecidableEq, Repr, Inhabited

/-- The name of a form. -/
def ListingShape.name : ListingShape → String
  | .list => "list"
  | .connection => "connection"

/-- A top-level field that can be answered from the store. -/
structure Listing where
  name : String
  shape : ListingShape
  /-- The field that identifies an entity. -/
  identifierField : String
  /-- Fields that the store never holds. -/
  missingFields : List String
  sortable : Bool
deriving DecidableEq, Repr, Inhabited

namespace Listing

open Query (Field)

/-- Is this a field that the store never holds? -/
def isMissing (l : Listing) (field : String) : Bool :=
  decide (field ∈ l.missingFields)

/-- The selections on entities inside a selection of the listing: those of the first `node`
of the first `edges` when it is a connection. -/
def entityFields (l : Listing) (selection : Field) : List Field :=
  match l.shape with
  | .list => selection.subfields
  | .connection =>
    ((selection.subfield? "edges").bind (·.subfield? "node")).elim [] Field.subfields

/-- The selection with its selections on entities replaced; a connection keeps nothing
else. -/
def withEntityFields (l : Listing) (selection : Field) (fields : List Field) : Field :=
  { selection with
    subfields := match l.shape with
      | .list => fields
      | .connection => [.withSubfields "edges" [.withSubfields "node" fields]] }

end Listing

end DexCache
