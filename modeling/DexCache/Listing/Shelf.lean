import DexCache.Listing.Pairs
import DexCache.Listing.Tokens
import DexCache.Store.Basic

/-!
# Listings over the store

Which kind of entity a listing is about, its answer from the store, and whether everything
it would read is fresh.
-/

namespace DexCache

open Query (Field)

/-- The groups behind these fields of an entity, each once. -/
def backingGroups {G : Type} [DecidableEq G] [FieldGroup G] (fields : List Field) : List G :=
  (fields.filterMap fun f => FieldGroup.ofField? f.name).eraseDups

/-- Is every entity fresh for the groups behind these fields? -/
def Collection.isFreshFor {α G P : Type} [DecidableEq G] [FieldGroup G] [Entity α G P]
    (c : Collection α G) (fields : List Field) (now : Int) : Bool :=
  c.allFresh (backingGroups fields) now

/-- The listing of this name among those of one kind. -/
def EntityKind.listing? (kind : EntityKind) (name : String) : Option Listing :=
  match kind with
  | .pair => pairCatalogue.listing? name
  | .token => tokenCatalogue.listing? name

namespace Store

/-- The answer of a listing of one kind. -/
def respond (s : Store) (kind : EntityKind) (name : String) (args : Json.Object)
    (fields : List Field) : Except Query.Error Json :=
  match kind with
  | .pair => pairCatalogue.respond s.pairs.all name args fields
  | .token => tokenCatalogue.respond s.tokens.all name args fields

/-- Is every entity of a kind fresh for the groups behind these fields? -/
def isFreshFor (s : Store) (kind : EntityKind) (fields : List Field) (now : Int) : Bool :=
  match kind with
  | .pair => s.pairs.isFreshFor fields now
  | .token => s.tokens.isFreshFor fields now

end Store

end DexCache
