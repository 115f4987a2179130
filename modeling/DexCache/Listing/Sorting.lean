import DexCache.Decimal.Amount
import DexCache.Json.Reader

/-!
# Sorting by amounts

Listings are sorted by one amount.  A missing amount counts as zero, and what compares
equal keeps its order in both directions.
-/

namespace DexCache

/-- The direction of a sort. -/
inductive SortOrder where
  | ascending
  | descending
deriving DecidableEq, Repr, Inhabited

/-- Reads a direction. -/
def SortOrder.reader : Json.Reader SortOrder := fun v =>
  (Json.Reader.unitVariant ["ASC", "DESC"] v).map fun name =>
    if name = "DESC" then .descending else .ascending

/-- The sorting argument of a listing. -/
structure Sorting where
  field : Option String := none
  order : SortOrder := .ascending
deriving DecidableEq, Repr, Inhabited

namespace Sorting

/-- Reads a sorting argument. -/
def reader : Json.Reader Sorting :=
  .record "SortingArgs" (Json.FieldsReader.pure Sorting.mk
    |>.andField (.optional "sortField" .string)
    |>.andField (.default "sortOrder" SortOrder.reader .ascending)) false

/-- May an item with key `a` stand before one with key `b`? -/
def inOrder (order : SortOrder) (a b : Option Amount) : Bool :=
  match order with
  | .ascending => Amount.cmpMissing a b != .gt
  | .descending => Amount.cmpMissing b a != .gt

/-- Sorts items by their keys; equal ones keep their order. -/
def sortBy (order : SortOrder) (key : α → Option Amount) (items : List α) : List α :=
  ((items.map fun a => (key a, a)).mergeSort fun a b => inOrder order a.1 b.1).map Prod.snd

end Sorting

end DexCache
