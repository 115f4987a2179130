import DexCache.Json.Amount
import DexCache.Listing.Basic
import DexCache.Listing.Sorting
import DexCache.Paging.Window
import DexCache.Projection

/-!
# Answering a listing

A catalogue knows the listings of one kind of entity, how their filters are read and what
they let through, and by which amounts they can be sorted.  An answer is made in this
order: read the filters, the sorting and the paging, filter, sort, cut the window,
project.
-/

namespace DexCache

open Json (Fault FieldReader Reader)
open Query (Field)

/-- A filter value or a list of them. -/
def Json.Reader.oneOrMany : Reader (Option (List String))
  | .null => .ok none
  | .str s => .ok (some [s])
  | .arr items =>
    match items.mapM Json.str? with
    | some texts => .ok (some texts)
    | none => .error (.noVariantFits "OneOrMany")
  | _ => .error (.noVariantFits "OneOrMany")

/-- A filter field that takes one value or several. -/
def Json.FieldReader.oneOrMany (name : String) : FieldReader (Option (List String)) :=
  .default name .oneOrMany none

/-- A filter field that takes an amount. -/
def Json.FieldReader.amount (name : String) : FieldReader (Option Amount) :=
  .default name .amount none

/-- The listings of entities of type `α`, filtered by an `F` and sorted by a `K`. -/
structure Catalogue (α F K : Type) where
  listings : List Listing
  /-- The type of an entity in answers. -/
  entityType : String
  /-- The type of a page in answers. -/
  pageType : String
  toJson : α → Json
  filters : Reader F
  noFilters : F
  /-- What an entity must pass, in the order of checking. -/
  predicates : F → List (α → Bool)
  sortKey? : String → Option K
  keyOf : K → α → Option Amount

/-- How a listing is cut. -/
inductive Paging.Request where
  | slice (offset limit : Nat)
  | page (args : Paging.PageArgs)
deriving DecidableEq, Repr

/-- The arguments of a listing. -/
structure ListingArgs (F : Type) where
  filters : F
  sorting : Option Sorting
  paging : Paging.Request
deriving Repr

namespace Catalogue

variable {α F K : Type}

/-- The limit of a list that gives none. -/
def defaultLimit : Nat := 500

/-- The size of a page that gives none. -/
def defaultPageSize : Nat := 10

/-- The listing of this name. -/
def listing? (c : Catalogue α F K) (name : String) : Option Listing :=
  c.listings.find? fun l => l.name = name

/-- Reads an argument that may be absent or null. -/
def argument (l : Listing) (args : Json.Object) (name : String) (read : Reader β) :
    Except Query.Error (Option β) :=
  ((Reader.optional read) ((args.get? name).getD .null)).mapError
    (.arguments l.name (some name))

/-- Reads the filters: they are the arguments themselves when the listing is a list. -/
def readFilters (c : Catalogue α F K) (l : Listing) (args : Json.Object) :
    Except Query.Error F :=
  match l.shape with
  | .list => (c.filters (.obj args)).mapError (.arguments l.name none)
  | .connection => do return (← argument l args "filters" c.filters).getD c.noFilters

/-- Reads all arguments. -/
def readArgs (c : Catalogue α F K) (l : Listing) (args : Json.Object) :
    Except Query.Error (ListingArgs F) := do
  let filters ← c.readFilters l args
  let sorting ← if l.sortable then argument l args "sorting" Sorting.reader else .ok none
  let paging ← match l.shape with
    | .list => do
      let offset ← argument l args "offset" .size
      let limit ← argument l args "limit" .size
      .ok (.slice (offset.getD 0) (limit.getD defaultLimit))
    | .connection => do
      let page ← argument l args "pagination" Paging.PageArgs.reader
      .ok (.page (page.getD {}))
  return { filters, sorting, paging }

/-- The entities that pass all predicates. -/
def keep (predicates : List (α → Bool)) (entities : List α) : List α :=
  predicates.foldl (fun kept p => kept.filter p) entities

/-- The entities in the order asked for; an unknown key leaves them as they are. -/
def sort (c : Catalogue α F K) (sorting : Option Sorting) (entities : List α) : List α :=
  match sorting with
  | none => entities
  | some s =>
    match s.field.bind c.sortKey? with
    | none => entities
    | some key => Sorting.sortBy s.order (c.keyOf key) entities

/-- The entities that a listing is about, filtered and sorted. -/
def select (c : Catalogue α F K) (args : ListingArgs F) (entities : List α) : List α :=
  c.sort args.sorting (keep (c.predicates args.filters) entities)

/-- The answer of the listing `name` over these entities. -/
def respond (c : Catalogue α F K) (entities : List α) (name : String) (args : Json.Object)
    (fields : List Field) : Except Query.Error Json := do
  let some l := c.listing? name | .error (.unknownQuery name)
  let args ← c.readArgs l args
  let selected := c.select args entities
  let total := selected.length
  match args.paging with
  | .slice offset limit =>
    let window := Paging.Window.slice offset limit total
    return .arr ((window.cut selected).map fun e =>
      Projection.project (c.toJson e) fields c.entityType)
  | .page page =>
    let window ← (Paging.Window.ofArgs page total defaultPageSize).mapError .cursor
    let raw := Paging.page ((window.cut selected).map c.toJson) window total
    return Projection.project raw fields c.pageType

end Catalogue

end DexCache
